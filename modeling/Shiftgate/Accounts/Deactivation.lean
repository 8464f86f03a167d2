import Shiftgate.Accounts.Directory

/-! What a deactivation does to the sessions of an account. No statement revives a session, so the
question is whether the handler that makes the account inactive also comes to revoke them. -/

namespace Shiftgate.Accounts

open Library List Option

variable {text : Text}

namespace Database

variable {db db' : Database text} {userID : String} {ids : List String}

structure Follows (db db' : Database text) : Prop where
  ids : db.sessionIDs ⊆ db'.sessionIDs
  unique : db'.sessionIDs.Nodup
  revoked : ∀ session' ∈ db'.sessions, session'.id ∈ db.sessionIDs →
    ∃ session ∈ db.sessions, session.id = session'.id ∧ session.userID = session'.userID ∧
      (session.revoked = true → session'.revoked = true)

def Dead (db : Database text) (userID : String) (ids : List String) : Prop :=
  ∀ session ∈ db.sessions, session.userID = userID → session.id ∈ ids → session.revoked = true

theorem Follows.ofEq (hunique : db.sessionIDs.Nodup) (h : db'.sessions = db.sessions) :
    db.Follows db' := by
  have hids : db'.sessionIDs = db.sessionIDs := by rw [sessionIDs, h, sessionIDs]
  refine ⟨hids ▸ fun _ h => h, hids ▸ hunique, fun session hs _ => ?_⟩
  exact ⟨session, h ▸ hs, rfl, rfl, fun hr => hr⟩

theorem Dead.follow (h : db.Dead userID ids) (hids : ids ⊆ db.sessionIDs)
    (hf : db.Follows db') : db'.Dead userID ids := by
  intro session' hs' huser hid
  obtain ⟨session, hs, hsame, huser', hrevoked⟩ := hf.revoked session' hs' (hids hid)
  exact hrevoked (h session hs (huser'.trans huser) (hsame ▸ hid))

theorem Follows.map {f : SessionRow → SessionRow} (hunique : db.sessionIDs.Nodup)
    (h : db'.sessions = db.sessions.map f)
    (hf : ∀ session ∈ db.sessions, (f session).id = session.id ∧
      (f session).userID = session.userID ∧
        (session.revoked = true → (f session).revoked = true)) : db.Follows db' := by
  have hids : db'.sessionIDs = db.sessionIDs := by
    rw [sessionIDs, h, List.map_map, sessionIDs]
    exact map_congr_left fun session hs => (hf session hs).1
  refine ⟨hids ▸ fun _ h => h, hids ▸ hunique, fun session' hs' _ => ?_⟩
  rw [h, List.mem_map] at hs'
  obtain ⟨session, hs, rfl⟩ := hs'
  obtain ⟨hid, huser, hrevoked⟩ := hf session hs
  exact ⟨session, hs, hid.symm, huser.symm, hrevoked⟩

theorem Follows.revoke {P : SessionRow → Prop} [DecidablePred P] (hunique : db.sessionIDs.Nodup)
    (h : db'.sessions = db.sessions.map fun session =>
      if P session then { session with revoked := true } else session) : db.Follows db' := by
  refine .map hunique h fun session _ => ?_
  split_ifs
  · exact ⟨rfl, rfl, fun _ => rfl⟩
  · exact ⟨rfl, rfl, fun hr => hr⟩

section

variable (hunique : db.sessionIDs.Nodup)

include hunique

theorem eq_of_sessionID {a b : SessionRow} (ha : a ∈ db.sessions) (hb : b ∈ db.sessions)
    (h : a.id = b.id) : a = b :=
  inj_on_of_nodup_map hunique ha hb h

theorem rotateSession_follows {refreshHash nextAccess nextRefresh : String} {access refresh : Nat} :
    db.Follows (db.rotateSession refreshHash nextAccess nextRefresh access refresh).1 := by
  unfold rotateSession
  split
  · rename_i current hfound
    have hlive : current.revoked = false := by
      have := find?_some hfound
      simp only [decide_eq_true_eq] at this
      exact this.2.1
    refine .map hunique rfl fun session hs => ?_
    split_ifs with hid
    · obtain rfl := eq_of_sessionID hunique hs (mem_of_find?_eq_some hfound) hid
      exact ⟨rfl, rfl, fun hr => hr⟩
    · exact ⟨rfl, rfl, fun hr => hr⟩
  · split
    · exact .revoke hunique rfl
    · exact .ofEq hunique rfl

theorem insertSession_follows {session : SessionRow} (h : db.insertSession session = some db') :
    db.Follows db' := by
  unfold insertSession at h
  split_ifs at h with hfresh
  cases h
  have hids : (db.createSession session).sessionIDs = db.sessionIDs ++ [session.id] := by
    simp [sessionIDs, createSession]
  refine ⟨hids ▸ subset_append_left _ _, ?_, fun session' hs' hold => ?_⟩
  · rw [hids]
    exact hunique.append (nodup_singleton _) (by simpa using hfresh)
  · rcases mem_append.mp hs' with hs' | hnew
    · exact ⟨session', hs', rfl, rfl, fun hr => hr⟩
    · rw [mem_singleton.mp hnew] at hold
      exact absurd hold hfresh

theorem revokeSession_follows {id : String} :
    db.Follows (db.revokeSession id userID) := .revoke hunique rfl

end

variable {organizationID : String} {user : SCIMUser} {seated : Bool}

theorem scimSetActive_some {active : Bool}
    (h : db.scimSetActive organizationID userID active = some db') :
    (db.users.byID userID).isSome ∧ ∃ users, db.users.update userID (fun row =>
        { row with disabledAt := if active then none else some db.now }) = some users ∧
      db' = { db with users, sessions := db.sessions.map fun session =>
        if active = false ∧ session.userID = userID then { session with revoked := true }
        else session } := by
  unfold scimSetActive at h
  split at h
  · cases h
  · rename_i hfound
    obtain ⟨users, hwrite, rfl⟩ := map_eq_some_iff.mp h
    rw [not_or] at hfound
    exact ⟨by simpa [isSome_iff_ne_none] using hfound.2, users, hwrite, rfl⟩

theorem scimDeactivate_some (h : db.scimDeactivate organizationID userID = some db') :
    ∃ users, db.users.update userID (fun row => { row with disabledAt := some db.now }) =
        some users ∧
      db' = { db with users, sessions := db.sessions.map fun session =>
        if session.userID = userID then { session with revoked := true } else session } := by
  obtain ⟨-, users, hwrite, rfl⟩ := scimSetActive_some h
  exact ⟨users, by simpa using hwrite, by simp⟩

theorem scimDeactivate_follows (hunique : db.sessionIDs.Nodup)
    (h : db.scimDeactivate organizationID userID = some db') : db.Follows db' := by
  obtain ⟨users, -, rfl⟩ := scimDeactivate_some h
  exact .revoke hunique rfl

theorem scimDeactivate_dead (h : db.scimDeactivate organizationID userID = some db') :
    db'.Dead userID ids := by
  obtain ⟨users, -, rfl⟩ := scimDeactivate_some h
  intro session' hs' huser _
  obtain ⟨session, hs, rfl⟩ := List.mem_map.mp hs'
  split_ifs with hsame
  · rfl
  · rw [if_neg hsame] at huser
    exact absurd huser hsame

def isDisabled (db : Database text) (userID : String) : Bool :=
  (db.users.byID userID).any (·.disabled)

end Database

variable {users : Users text}

theorem Users.byID_some {id : String} {row : UserRow} (h : users.byID id = some row) :
    row ∈ users.rows ∧ row.id = id :=
  ⟨mem_of_find?_eq_some h, by simpa using find?_some h⟩

theorem Users.byID_update {users' : Users text} {id userID : String} {f : UserRow → UserRow}
    (h : users.update id f = some users') (hf : ∀ row, (f row).id = row.id) :
    users'.byID userID =
      (users.byID userID).map fun row => if row.id = id then f row else row := by
  rw [byID, rows_of_update h, find?_map, byID]
  congr 2
  funext row
  simp only [Function.comp]
  split_ifs
  · rw [hf]
  · rfl

theorem Users.byID_insert {users' : Users text} {userID : String} {row : UserRow}
    (h : users.insert row = some users') :
    users'.byID userID = (users.byID userID).or (if row.id = userID then some row else none) := by
  rw [byID, rows_of_insert h, find?_append, byID]
  by_cases hid : row.id = userID <;> simp [hid]

namespace Database

variable {db db' : Database text} {userID : String}

theorem scimCreateUser_ok (h : db.scimCreateUser organizationID userID user seated = .ok db') :
    ∃ users, db.users.insert (freshSCIMRow text userID user) = some users ∧
      db' = { db with users, members := db.members ++ [⟨organizationID, userID, .viewer⟩] } := by
  unfold scimCreateUser at h
  split_ifs at h
  split at h
  · cases h
    exact ⟨_, ‹_›, rfl⟩
  · cases h

theorem isDisabled_insert {row : UserRow} (h : db.users.insert row = some users)
    (hoff : db.isDisabled userID = true) (hdb : db'.users = users) :
    db'.isDisabled userID = true := by
  unfold isDisabled at hoff ⊢
  simp only [hdb, Users.byID_insert h]
  cases hfound : db.users.byID userID with
  | none => simp [hfound] at hoff
  | some row =>
    rw [hfound] at hoff
    exact hoff

theorem isDisabled_update {id : String} {f : UserRow → UserRow}
    (h : db.users.update id f = some users) (hf : ∀ row, (f row).id = row.id)
    (hkeep : userID = id → ∀ row, (f row).disabled = true) (hoff : db.isDisabled userID = true)
    (hdb : db'.users = users) : db'.isDisabled userID = true := by
  unfold isDisabled at hoff ⊢
  rw [hdb, Users.byID_update h hf]
  cases hfound : db.users.byID userID with
  | none => simp [hfound] at hoff
  | some row =>
    have hid := (Users.byID_some hfound).2
    rw [hfound] at hoff
    simp only [map_some, any_some] at hoff ⊢
    split_ifs with hsame
    · exact hkeep (hid.symm.trans hsame) row
    · exact hoff

theorem scimReplaceUser_ok {id : String} (h : db.scimReplaceUser organizationID id user = .ok db') :
    (db.users.byID id).isSome ∧ ∃ users, db.users.update id (fun row =>
        { row with email := text.normalize user.email, displayName := user.displayName,
                   externalID := text.trim user.externalID,
                   disabledAt := if user.active then none else some db.now }) =
      some users ∧ db' = { db with users } := by
  unfold scimReplaceUser at h
  split at h
  · cases h
  · rename_i hmissing
    split at h
    · rename_i users hwrite
      cases h
      refine ⟨?_, users, hwrite, rfl⟩
      rw [not_or] at hmissing
      simpa [isSome_iff_ne_none] using hmissing.2
    · cases h

theorem scimReplaceUser_inactive (h : db.scimReplaceUser organizationID userID user = .ok db')
    (hactive : user.active = false) : db'.isDisabled userID = true := by
  obtain ⟨hsome, users, hwrite, rfl⟩ := scimReplaceUser_ok h
  obtain ⟨row, hrow⟩ := isSome_iff_exists.mp hsome
  unfold isDisabled
  simp only
  rw [Users.byID_update hwrite (fun _ => rfl), hrow]
  simp [(Users.byID_some hrow).2, hactive, UserRow.disabled]

theorem scimUserByID_inactive (h : db.scimUserByID organizationID userID = some user)
    (hoff : db.isDisabled userID = true) : user.active = false := by
  unfold scimUserByID at h
  split_ifs at h
  obtain ⟨row, hrow, rfl⟩ := map_eq_some_iff.mp h
  unfold isDisabled at hoff
  rw [hrow] at hoff
  simpa [UserRow.scim] using hoff

end Database

open Database

namespace Directory

def Handler.replacing (h : Handler) : Option SCIMUser :=
  match h.point with
  | .replace next => some next
  | _ => none

/-- The handler's replacement made the account inactive, and it has not read it again. -/
def Handler.unread (h : Handler) : Bool :=
  match h.point with
  | .reread written => !written.active
  | _ => false

def Handler.refused (h : Handler) : Bool :=
  match h.point with
  | .answered .. => !h.succeeded
  | _ => false

def allRevoked (db : Database text) (userID : String) : Bool :=
  db.sessions.all fun session => session.userID ≠ userID || session.revoked

/-- A replacement makes the account active only while no other handler has yet to see its own
deactivation, or when no session of the account is left. -/
def Orderly (s : System text) : Action → Prop
  | .advance k => ∀ h ∈ s.handlers[k]?, ∀ next ∈ h.replacing, next.active = true →
      (∀ other ∈ s.handlers, other.userID = h.userID → other.unread = false) ∨
        allRevoked s.db h.userID = true
  | _ => True

instance (s : System text) : ∀ a, Decidable (Orderly s a)
  | .advance k => inferInstanceAs (Decidable (∀ h ∈ s.handlers[k]?, ∀ next ∈ h.replacing,
      next.active = true →
        (∀ other ∈ s.handlers, other.userID = h.userID → other.unread = false) ∨
          allRevoked s.db h.userID = true))
  | .arrive .. | .fail _ | .signIn _ | .rotate .. | .logout .. | .join .. | .tick _ =>
    isTrue trivial

structure Handler.Sound (db : Database text) (h : Handler) : Prop where
  known : ∀ ids ∈ h.deactivated, ids ⊆ db.sessionIDs
  dead : ∀ ids ∈ h.deactivated, db.Dead h.userID ids ∨ h.point = .revoke ∨
    (h.unread = true ∧ db.isDisabled h.userID = true) ∨ h.refused = true

structure System.Sound (s : System text) : Prop where
  unique : s.db.sessionIDs.Nodup
  handlers : ∀ h ∈ s.handlers, h.Sound s.db

variable {db db' : Database text} {h h' : Handler} {s t : System text}

theorem dead_of_allRevoked {userID : String} {ids : List String}
    (hall : allRevoked db userID = true) : db.Dead userID ids := by
  intro session hs huser _
  have := List.all_eq_true.mp hall session hs
  simpa [huser] using this

theorem Handler.Sound.follow (hs : h.Sound db) (hf : db.Follows db')
    (hdisabled : h.unread = true → db.isDisabled h.userID = true →
      db'.isDisabled h.userID = true ∨ allRevoked db h.userID = true) : h.Sound db' where
  known ids hids := fun _ hid => hf.ids (hs.known ids hids hid)
  dead ids hids := by
    rcases hs.dead ids hids with hdead | hrevoke | ⟨hunread, hoff⟩ | hrefused
    · exact .inl (hdead.follow (hs.known ids hids) hf)
    · exact .inr (.inl hrevoke)
    · rcases hdisabled hunread hoff with hkept | hall
      · exact .inr (.inr (.inl ⟨hunread, hkept⟩))
      · exact .inl ((dead_of_allRevoked hall).follow (hs.known ids hids) hf)
    · exact .inr (.inr (.inr hrefused))

theorem Handler.Sound.goto (hs : h.Sound db) (hpoint : h.point ≠ .revoke)
    (hunread : h.unread = false) (hopen : h.refused = false) (point : Point) :
    Handler.Sound db { h with point } where
  known := hs.known
  dead ids hids := by
    refine .inl ((hs.dead ids hids).resolve_right ?_)
    rintro (h | ⟨h, -⟩ | h)
    · exact hpoint h
    · exact Bool.false_ne_true (hunread.symm.trans h)
    · exact Bool.false_ne_true (hopen.symm.trans h)

theorem sound_of_refused {point : Point} (hs : h.Sound db)
    (hrefused : Handler.refused { h with point } = true) : Handler.Sound db { h with point } :=
  ⟨hs.known, fun _ _ => .inr (.inr (.inr hrefused))⟩

theorem setInactive_sound {next missing : Point} (hunique : db.sessionIDs.Nodup) (hs : h.Sound db)
    (hmissing : Handler.refused { h with point := missing } = true)
    (hstep : h.setInactive db next missing = (db', h')) :
    db.Follows db' ∧ h'.Sound db' := by
  unfold Handler.setInactive at hstep
  split at hstep
  · rename_i after hsome
    cases hstep
    have hf := scimDeactivate_follows hunique hsome
    refine ⟨hf, fun ids hids => ?_, fun ids hids => .inl (scimDeactivate_dead hsome)⟩
    cases hids
    exact hf.ids
  · cases hstep
    exact ⟨.ofEq hunique rfl, sound_of_refused hs hmissing⟩

def Handler.deactivating (h : Handler) : Bool :=
  match h.point with
  | .stage | .revokeFirst _ | .revoke | .deactivate => true
  | _ => false

inductive Effect (db : Database text) (h : Handler) : Database text → Prop
  | none : Effect db h db
  | creates {user : SCIMUser} {users : Users text} (hpoint : h.point = .create user)
      (hwrite : db.users.insert (Database.freshSCIMRow text h.userID user) = some users) :
      Effect db h
        { db with users, members := db.members ++ [⟨h.organizationID, h.userID, .viewer⟩] }
  | replaces {next : SCIMUser} {users : Users text} (hpoint : h.point = .replace next)
      (hwrite : db.users.update h.userID (fun row =>
        { row with email := text.normalize next.email, displayName := next.displayName,
                   externalID := text.trim next.externalID,
                   disabledAt := if next.active then Option.none else some db.now }) = some users) :
      Effect db h { db with users }
  | deactivates {users : Users text} (hpoint : h.deactivating = true)
      (hwrite : db.users.update h.userID (fun row => { row with disabledAt := some db.now }) =
        some users) :
      Effect db h { db with users, sessions := db.sessions.map fun session =>
        if session.userID = h.userID then { session with revoked := true } else session }

theorem setInactive_effect {next missing : Point} (hpoint : h.deactivating = true)
    (hset : h.setInactive db next missing = (db', h')) : Effect db h db' := by
  unfold Handler.setInactive at hset
  split at hset
  · rename_i after hsome
    cases hset
    obtain ⟨users, hwrite, rfl⟩ := scimDeactivate_some hsome
    exact .deactivates hpoint hwrite
  · cases hset
    exact .none

theorem advance_effect (hstep : h.advance db = some (db', h')) : Effect db h db' := by
  cases hp : h.point with
  | create user =>
    simp only [Handler.advance, hp] at hstep
    split at hstep <;> cases hstep
    · obtain ⟨users, hwrite, rfl⟩ := scimCreateUser_ok ‹_›
      exact .creates hp hwrite
    · exact .none
    · exact .none
  | read | memberships | reread | confirm =>
    simp only [Handler.advance, hp, some.injEq] at hstep
    cases hstep
    exact .none
  | stage | revokeFirst | revoke | deactivate =>
    simp only [Handler.advance, hp, some.injEq] at hstep
    exact setInactive_effect (by simp [Handler.deactivating, hp]) hstep
  | replace next =>
    simp only [Handler.advance, hp] at hstep
    split at hstep <;> cases hstep
    · obtain ⟨-, users, hwrite, rfl⟩ := scimReplaceUser_ok ‹_›
      exact .replaces hp hwrite
    · exact .none
    · exact .none
  | answered => simp [Handler.advance, hp] at hstep

theorem advance_follows (hunique : db.sessionIDs.Nodup) (hstep : h.advance db = some (db', h')) :
    db.Follows db' ∧ ∀ userID, db.isDisabled userID = true →
      db'.isDisabled userID = true ∨
        userID = h.userID ∧ ∃ next ∈ h.replacing, next.active = true := by
  cases advance_effect hstep with
  | none => exact ⟨.ofEq hunique rfl, fun _ hoff => .inl hoff⟩
  | creates hp hwrite =>
    exact ⟨.ofEq hunique rfl, fun _ hoff => .inl (isDisabled_insert hwrite hoff rfl)⟩
  | @replaces next users hp hwrite =>
    refine ⟨.ofEq hunique rfl, fun userID hoff => ?_⟩
    by_cases hactive : userID = h.userID ∧ next.active = true
    · exact .inr ⟨hactive.1, next, by simp [Handler.replacing, hp], hactive.2⟩
    · refine .inl (isDisabled_update hwrite (fun _ => rfl) (fun hsame row => ?_) hoff rfl)
      have hoff' : next.active = false := by simpa [hsame] using hactive
      simp [UserRow.disabled, hoff']
  | deactivates hp hwrite =>
    exact ⟨.revoke hunique rfl, fun _ hoff =>
      .inl (isDisabled_update hwrite (fun _ => rfl) (fun _ _ => rfl) hoff rfl)⟩

theorem advance_sound (hunique : db.sessionIDs.Nodup) (hs : h.Sound db)
    (hstep : h.advance db = some (db', h')) : h'.Sound db' := by
  have hgoto : h.point ≠ .revoke → h.unread = false → h.refused = false →
      ∀ point, Handler.Sound db { h with point } := fun h1 h2 h3 => hs.goto h1 h2 h3
  cases hp : h.point with
  | create user =>
    have hgoto := hgoto (by simp [hp]) (by simp [Handler.unread, hp])
      (by simp [Handler.refused, hp])
    simp only [Handler.advance, hp] at hstep
    split at hstep
    · rename_i after hok
      cases hstep
      obtain ⟨users, -, hdb⟩ := scimCreateUser_ok hok
      refine (hgoto _).follow (.ofEq hunique (by rw [hdb])) fun hunread _ => ?_
      cases hactive : user.active <;> simp [Handler.unread, hactive] at hunread
    · cases hstep
      exact hgoto _
    · cases hstep
      exact hgoto _
  | read | memberships | confirm =>
    simp only [Handler.advance, hp, some.injEq] at hstep
    cases hstep
    exact hgoto (by simp [hp]) (by simp [Handler.unread, hp]) (by simp [Handler.refused, hp]) _
  | stage | revokeFirst | revoke | deactivate =>
    simp only [Handler.advance, hp, some.injEq] at hstep
    exact (setInactive_sound hunique hs rfl hstep).2
  | replace next =>
    have hgoto := hgoto (by simp [hp]) (by simp [Handler.unread, hp])
      (by simp [Handler.refused, hp])
    simp only [Handler.advance, hp] at hstep
    split at hstep
    · rename_i after hok
      cases hstep
      obtain ⟨-, users, -, hdb⟩ := scimReplaceUser_ok hok
      have hf : db.Follows db' := .ofEq hunique (by rw [hdb])
      cases hactive : next.active with
      | true =>
        refine ((hgoto (.reread next)).follow hf fun hunread _ => ?_)
        simp [Handler.unread, hactive] at hunread
      | false =>
        refine ⟨fun ids hids => ?_, fun ids hids => .inr (.inr (.inl ⟨?_, ?_⟩))⟩
        · simp only [Bool.false_eq_true, if_false] at hids
          cases hids
          exact hf.ids
        · simp [Handler.unread, hactive]
        · exact scimReplaceUser_inactive hok hactive
    · cases hstep
      exact hgoto _
    · cases hstep
      exact hgoto _
  | reread written =>
    simp only [Handler.advance, hp, some.injEq] at hstep
    cases hstep
    refine ⟨hs.known, fun ids hids => ?_⟩
    cases hread : db.scimUserByID h.organizationID h.userID with
    | none => exact .inr (.inr (.inr rfl))
    | some replaced =>
      cases hactive : replaced.active with
      | false => exact .inr (.inl (by simp [hactive]))
      | true =>
        -- The account is active, so the handler had nothing to kill or it is dead.
        refine .inl ((hs.dead ids hids).resolve_right ?_)
        rintro (hrevoke | ⟨-, hoff⟩ | hrefused)
        · simp [hp] at hrevoke
        · exact absurd (scimUserByID_inactive hread hoff) (by simp [hactive])
        · simp [Handler.refused, hp] at hrefused
  | answered => simp [Handler.advance, hp] at hstep

theorem step_follows {a : Action} (hunique : s.db.sessionIDs.Nodup) (hstep : s.step a = some t) :
    s.db.Follows t.db := by
  cases a with
  | arrive | tick =>
    cases hstep
    exact .ofEq hunique rfl
  | join =>
    simp only [System.step] at hstep
    split_ifs at hstep
    cases hstep
    exact .ofEq hunique rfl
  | advance k =>
    simp only [System.step, bind_eq_bind, bind_eq_some_iff] at hstep
    obtain ⟨h, -, ⟨db', h'⟩, hnext, hstep⟩ := hstep
    cases hstep
    exact (advance_follows hunique hnext).1
  | fail k =>
    simp only [System.step, bind_eq_bind, bind_eq_some_iff] at hstep
    obtain ⟨h, -, hstep⟩ := hstep
    split at hstep
    · cases hstep
    · cases hstep
      exact .ofEq hunique rfl
  | signIn session =>
    obtain ⟨db', hinsert, rfl⟩ := map_eq_some_iff.mp hstep
    exact insertSession_follows hunique hinsert
  | rotate =>
    cases hstep
    exact rotateSession_follows hunique
  | logout =>
    cases hstep
    exact revokeSession_follows hunique

theorem System.Sound.quiet (hs : s.Sound) (hf : s.db.Follows db')
    (husers : db'.users = s.db.users) : System.Sound ⟨db', s.handlers⟩ := by
  refine ⟨hf.unique, fun h hh => (hs.handlers h hh).follow hf fun _ hoff => .inl ?_⟩
  rw [isDisabled, husers]
  exact hoff

theorem step_sound {a : Action} (hs : s.Sound) (hcond : Orderly s a) (hstep : s.step a = some t) :
    t.Sound := by
  have hf := step_follows hs.unique hstep
  cases a with
  | arrive organizationID userID request =>
    cases hstep
    refine ⟨hs.unique, fun h hh => ?_⟩
    rcases mem_append.mp hh with hold | hnew
    · exact hs.handlers h hold
    · rw [mem_singleton.mp hnew]
      exact ⟨by simp, by simp⟩
  | advance k =>
    simp only [System.step, bind_eq_bind, bind_eq_some_iff] at hstep
    obtain ⟨h, hk, ⟨db', h'⟩, hnext, hstep⟩ := hstep
    cases hstep
    refine ⟨hf.unique, fun other hother => ?_⟩
    rcases mem_or_eq_of_mem_set hother with hold | rfl
    · refine (hs.handlers other hold).follow hf fun hunread hoff => ?_
      rcases (advance_follows hs.unique hnext).2 other.userID hoff with
        hkept | ⟨hsame, next, hreplacing, hactive⟩
      · exact .inl hkept
      · rcases hcond h hk next hreplacing hactive with hidle | hall
        · exact absurd hunread (by simp [hidle other hold hsame])
        · exact .inr (hsame ▸ hall)
    · exact advance_sound hs.unique (hs.handlers h (mem_of_getElem? hk)) hnext
  | fail k =>
    simp only [System.step, bind_eq_bind, bind_eq_some_iff] at hstep
    obtain ⟨h, hk, hstep⟩ := hstep
    split at hstep
    · cases hstep
    · cases hstep
      refine ⟨hs.unique, fun other hother => ?_⟩
      rcases mem_or_eq_of_mem_set hother with hold | rfl
      · exact hs.handlers other hold
      · exact sound_of_refused (hs.handlers h (mem_of_getElem? hk)) rfl
  | signIn session =>
    obtain ⟨db', hinsert, rfl⟩ := map_eq_some_iff.mp hstep
    refine hs.quiet hf ?_
    unfold insertSession at hinsert
    split_ifs at hinsert
    cases hinsert
    rfl
  | rotate =>
    cases hstep
    refine hs.quiet hf ?_
    unfold rotateSession
    split
    · rfl
    · split <;> rfl
  | logout | tick =>
    cases hstep
    exact hs.quiet hf rfl
  | join =>
    simp only [System.step] at hstep
    split_ifs at hstep
    cases hstep
    exact hs.quiet hf rfl

theorem dead_forever {userID : String} {ids : List String} {later : List Action}
    (hunique : s.db.sessionIDs.Nodup) (hknown : ids ⊆ s.db.sessionIDs)
    (hdead : s.db.Dead userID ids) (hlater : exec System.step s later = some t) :
    t.db.Dead userID ids := by
  have hkept : ∀ s a t, (s.db.sessionIDs.Nodup ∧ ids ⊆ s.db.sessionIDs ∧ s.db.Dead userID ids) →
      @System.step text s a = some t →
        t.db.sessionIDs.Nodup ∧ ids ⊆ t.db.sessionIDs ∧ t.db.Dead userID ids := by
    rintro s a t ⟨hunique, hknown, hdead⟩ hstep
    have hf := step_follows hunique hstep
    exact ⟨hf.unique, fun _ hid => hf.ids (hknown hid), hdead.follow hknown hf⟩
  exact (Reachable.invariant _ hkept ⟨hunique, hknown, hdead⟩ ⟨later, hlater⟩).2.2

theorem Database.Dead.refuses {userID : String} {ids : List String} (hdead : db.Dead userID ids) :
    (∀ hash session, db.authenticateAccess hash = some session → session.userID = userID →
      session.id ∉ ids) ∧
    ∀ hash nextAccess nextRefresh access refresh session,
      (db.rotateSession hash nextAccess nextRefresh access refresh).2 = .rotated session →
        session.userID = userID → session.id ∉ ids := by
  constructor
  · intro hash session hfound huser hid
    have hlive := find?_some hfound
    simp only [decide_eq_true_eq] at hlive
    have hrevoked := hdead session (mem_of_find?_eq_some hfound) huser hid
    simp [hrevoked] at hlive
  · intro hash nextAccess nextRefresh access refresh session hrotated huser hid
    unfold rotateSession at hrotated
    split at hrotated
    · rename_i current hfound
      have hlive := find?_some hfound
      simp only [decide_eq_true_eq] at hlive
      cases hrotated
      have hrevoked := hdead current (mem_of_find?_eq_some hfound) huser hid
      simp [hrevoked] at hlive
    · split at hrotated <;> cases hrotated

/-- A handler that made the account inactive and answered with success, in a run whose steps meet
the condition, has killed the sessions of that moment: no token of them is accepted later. -/
theorem deactivated_sessions_stay_dead {run later : List Action} {k : Nat} {ids : List String}
    (hunique : db.sessionIDs.Nodup) (hmeets : Meets System.step Orderly (initial db) run)
    (hrun : exec System.step (initial db) run = some s) (hk : s.handlers[k]? = some h)
    (hdone : h.succeeded = true) (hids : h.deactivated = some ids)
    (hlater : exec System.step s later = some t) :
    (∀ hash session, t.db.authenticateAccess hash = some session → session.userID = h.userID →
      session.id ∉ ids) ∧
    ∀ hash nextAccess nextRefresh access refresh session,
      (t.db.rotateSession hash nextAccess nextRefresh access refresh).2 = .rotated session →
        session.userID = h.userID → session.id ∉ ids := by
  have hsound : s.Sound :=
    exec_invariant System.Sound (fun _ _ _ hs hcond hstep => step_sound hs hcond hstep)
      ⟨hunique, fun h hh => absurd hh not_mem_nil⟩ hmeets hrun
  have hh := hsound.handlers h (mem_of_getElem? hk)
  have hdead : s.db.Dead h.userID ids := by
    refine (hh.dead ids hids).resolve_right ?_
    unfold Handler.succeeded at hdone
    split at hdone <;> simp_all [Handler.unread, Handler.refused, Handler.succeeded]
  exact Database.Dead.refuses (dead_forever hsound.unique (hh.known ids hids) hdead hlater)

/-- Whatever requests, sign-ins and refreshes follow, no token of a revoked session is accepted,
also after the account is made active again. -/
theorem revoked_session_refused {run later : List Action} {row : SessionRow}
    (hunique : db.sessionIDs.Nodup) (hrun : exec System.step (initial db) run = some s)
    (hrow : row ∈ s.db.sessions) (hrevoked : row.revoked = true)
    (hlater : exec System.step s later = some t) :
    (∀ hash session, t.db.authenticateAccess hash = some session → session.id ≠ row.id) ∧
    ∀ hash nextAccess nextRefresh access refresh session,
      (t.db.rotateSession hash nextAccess nextRefresh access refresh).2 = .rotated session →
        session.id ≠ row.id := by
  have hnodup : s.db.sessionIDs.Nodup := Reachable.invariant (·.db.sessionIDs.Nodup)
    (fun _ _ _ h hstep => (step_follows h hstep).unique) hunique ⟨run, hrun⟩
  have hknown : [row.id] ⊆ s.db.sessionIDs :=
    fun _ hid => mem_singleton.mp hid ▸ mem_map_of_mem hrow
  have hdead : ∀ userID, s.db.Dead userID [row.id] := fun _ session hs _ hid =>
    (eq_of_sessionID hnodup hs hrow (mem_singleton.mp hid)).symm ▸ hrevoked
  have hrefuses := fun userID => Database.Dead.refuses
    (dead_forever hnodup hknown (hdead userID) hlater)
  constructor
  · intro hash session hfound hid
    exact (hrefuses session.userID).1 hash session hfound rfl (mem_singleton.mpr hid)
  · intro hash nextAccess nextRefresh access refresh session hrotated hid
    exact (hrefuses session.userID).2 hash nextAccess nextRefresh access refresh session hrotated
      rfl (mem_singleton.mpr hid)

def sampleDatabase : Database plainText :=
  { emptyDatabase with
    users := ⟨[{ passwordRow with email := "a@x.y" }], pairwise_singleton _ _⟩,
    members := [⟨"organization", "u", .viewer⟩],
    sessions := [⟨"session", "u", "access", "refresh", [], 10, 20, false⟩] }

def put (active : Bool) : Action :=
  .arrive "organization" "u" (.put ⟨"", "a@x.y", "A", some active, []⟩)

def offAndOn : List Action :=
  [put false] ++ List.replicate 6 (.advance 0) ++ [put true] ++ List.replicate 6 (.advance 1)

theorem offAndOn_kills_session : ∃ s : System plainText, ∃ h ∈ s.handlers[0]?,
    exec System.step (initial sampleDatabase) offAndOn = some s ∧ h.succeeded = true ∧
    h.deactivated = some ["session"] ∧ s.db.isDisabled "u" = false ∧
    ∀ hash session, s.db.authenticateAccess hash = some session → session.userID = h.userID →
      session.id ∉ ["session"] := by
  obtain ⟨s, hs, hon, h, hk, hdone, hids⟩ : ∃ s : System plainText,
      exec System.step (initial sampleDatabase) offAndOn = some s ∧ s.db.isDisabled "u" = false ∧
      ∃ h ∈ s.handlers[0]?, h.succeeded = true ∧ h.deactivated = some ["session"] := by
    decide
  have hdead := deactivated_sessions_stay_dead (by decide) (by decide) hs hk hdone hids
    (exec_nil s)
  exact ⟨s, h, hk, hs, hdone, hids, hon, hdead.1⟩

theorem revoked_session_refused_sample : ∃ s : System plainText,
    exec System.step (initial sampleDatabase) offAndOn = some s ∧ s.db.isDisabled "u" = false ∧
    ∀ hash session, s.db.authenticateAccess hash = some session → session.id ≠ "session" := by
  obtain ⟨s, hs, hon, row, hrow, hid, hrevoked⟩ : ∃ s : System plainText,
      exec System.step (initial sampleDatabase) offAndOn = some s ∧ s.db.isDisabled "u" = false ∧
      ∃ row ∈ s.db.sessions, row.id = "session" ∧ row.revoked = true := by
    decide
  have hrefused := revoked_session_refused (by decide) hs hrow hrevoked (exec_nil s)
  exact ⟨s, hs, hon, hid ▸ hrefused.1⟩

/-- A request makes the account active again before the one that made it inactive reads it, which
then answers without revoking anything. -/
def hidden : List Action :=
  [put false, put true, .advance 0, .advance 1, .advance 0, .advance 0, .advance 1, .advance 0]

theorem deactivated_session_authenticates : ∃ s : System plainText, ∃ h ∈ s.handlers[0]?,
    exec System.step (initial sampleDatabase) hidden = some s ∧ h.succeeded = true ∧
    h.deactivated = some ["session"] ∧
    (∃ session, s.db.authenticateAccess "access" = some session ∧ session.id = "session" ∧
      session.userID = h.userID) := by
  simp only [and_left_comm (b := exec _ _ _ = _), exists_and_left]
  decide

end Directory

end Shiftgate.Accounts
