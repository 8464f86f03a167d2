import Shiftgate.Accounts.Deactivation

/-! Which accounts the directory of one organization can change. The users row is global, so before
an account-wide change a handler looks at the memberships of the account
(`scimGuardSharedAccount`); the write is a later statement that does not look again. -/

namespace Shiftgate.Accounts

open Library List Option Users

variable {text : Text}

namespace Database

variable {db db' : Database text} {organizationID userID : String}

def sharedBeyond (db : Database text) (organizationID userID : String) : Bool :=
  db.members.any fun m => m.user = userID && m.organization ≠ organizationID

def Referenced (db : Database text) : Prop := ∀ m ∈ db.members, (db.users.byID m.user).isSome

instance (db : Database text) : Decidable db.Referenced :=
  inferInstanceAs (Decidable (∀ m ∈ db.members, _))

def profile (db : Database text) (userID : String) : Option (String × String × Bool) :=
  (db.users.byID userID).map fun row => (row.email, row.externalID, !row.disabled)

def sessionsOf (db : Database text) (userID : String) : List SessionRow :=
  db.sessions.filter (·.userID = userID)

structure SameAccount (db db' : Database text) (userID : String) : Prop where
  profile : db'.profile userID = db.profile userID
  sessions : db'.sessionsOf userID = db.sessionsOf userID

theorem SameAccount.refl (db : Database text) (userID : String) : db.SameAccount db userID :=
  ⟨rfl, rfl⟩

theorem isMember_iff :
    db.isMember organizationID userID = true ↔
      ∃ m ∈ db.members, m.organization = organizationID ∧ m.user = userID := by
  simp [isMember, memberRole, find?_isSome]

theorem sharedBeyond_iff :
    db.sharedBeyond organizationID userID = true ↔
      ∃ m ∈ db.members, m.user = userID ∧ m.organization ≠ organizationID := by
  simp [sharedBeyond]

theorem sharedBeyond_other (other : String) (hshared : db.sharedBeyond organizationID userID = true)
    (hmember : db.isMember organizationID userID = true) : db.sharedBeyond other userID = true := by
  obtain ⟨m, hm, huser, horg⟩ := sharedBeyond_iff.mp hshared
  by_cases hsame : m.organization = other
  · obtain ⟨own, hown, hownOrg, hownUser⟩ := isMember_iff.mp hmember
    have hne : own.organization ≠ other := fun h => horg (hsame.trans (h.symm.trans hownOrg))
    exact sharedBeyond_iff.mpr ⟨own, hown, hownUser, hne⟩
  · exact sharedBeyond_iff.mpr ⟨m, hm, huser, hsame⟩

theorem Referenced.of_shared (h : db.Referenced)
    (hshared : db.sharedBeyond organizationID userID = true) : (db.users.byID userID).isSome := by
  obtain ⟨m, hm, rfl, -⟩ := sharedBeyond_iff.mp hshared
  exact h m hm

theorem Referenced.of_member (h : db.Referenced)
    (hmember : db.isMember organizationID userID = true) : (db.users.byID userID).isSome := by
  obtain ⟨m, hm, -, rfl⟩ := isMember_iff.mp hmember
  exact h m hm

variable {users : Users text}

theorem not_insert_of_isSome {row : UserRow} (hthere : (db.users.byID row.id).isSome) :
    db.users.insert row ≠ some users := by
  intro hwrite
  obtain ⟨found, hfound⟩ := isSome_iff_exists.mp hthere
  obtain ⟨hmem, hid⟩ := byID_some hfound
  exact insert_fresh hwrite hmem hid

theorem profile_update_other {id : String} {f : UserRow → UserRow}
    (hwrite : db.users.update id f = some users) (hf : ∀ row, (f row).id = row.id)
    (hne : userID ≠ id) (husers : db'.users = users) : db'.profile userID = db.profile userID := by
  simp only [profile, husers, byID_update hwrite hf, Option.map_map]
  refine Option.map_congr fun row hrow => ?_
  have hid : row.id ≠ id := (byID_some hrow).2.trans_ne hne
  simp [hid]

theorem sessionsOf_map_other {f : SessionRow → SessionRow} {id : String}
    (hsessions : db'.sessions = db.sessions.map f)
    (huser : ∀ session, (f session).userID = session.userID)
    (hf : ∀ session, session.userID ≠ id → f session = session) (hne : userID ≠ id) :
    db'.sessionsOf userID = db.sessionsOf userID := by
  have hpred : ((fun session : SessionRow => decide (session.userID = userID)) ∘ f) =
      fun session => decide (session.userID = userID) := by
    funext session
    simp [huser]
  rw [sessionsOf, hsessions, List.filter_map, hpred, sessionsOf]
  refine (map_congr_left fun session hs => ?_).trans (List.map_id _)
  exact hf session (by simp [(mem_filter.mp hs).2 |> of_decide_eq_true, hne])

end Database

namespace Directory

variable {db db' : Database text} {h h' : Handler} {s t : System text}

theorem advance_request (hstep : h.advance db = some (db', h')) :
    h'.organizationID = h.organizationID ∧ h'.userID = h.userID := by
  unfold Handler.advance Handler.setInactive at hstep
  repeat' split at hstep
  all_goals (cases hstep; try exact ⟨rfl, rfl⟩)

theorem Effect.others {userID : String} (he : Effect db h db') (hne : userID ≠ h.userID) :
    db.SameAccount db' userID := by
  cases he with
  | none => exact .refl db userID
  | creates hpoint hwrite =>
    refine ⟨?_, rfl⟩
    simp only [Database.profile, byID_insert hwrite]
    rw [if_neg (show (Database.freshSCIMRow text h.userID _).id ≠ userID from hne.symm), or_none]
  | replaces hpoint hwrite =>
    exact ⟨Database.profile_update_other hwrite (fun _ => rfl) hne rfl, rfl⟩
  | deactivates hpoint hwrite =>
    refine ⟨Database.profile_update_other hwrite (fun _ => rfl) hne rfl,
      Database.sessionsOf_map_other rfl (fun session => ?_) (fun session hother => ?_) hne⟩
    · split_ifs <;> rfl
    · exact if_neg hother

def Handler.engaged (h : Handler) : Bool :=
  match h.point with
  | .create _ | .read | .answered .. => false
  | _ => true

/-- The account is not spelled as the directory writes accounts, or inactive, or the request spells
its address in another way. -/
def Handler.strays (text : Text) (h : Handler) (current : SCIMUser) : Prop :=
  current.active = false ∨ text.normalize current.email ≠ current.email ∨
    text.trim current.externalID ≠ current.externalID ∨
    ∃ next ∈ (h.request.wanted text current).toOption,
      text.equalFold next.email current.email = true ∧ next.email ≠ current.email

instance (h : Handler) (current : SCIMUser) : Decidable (h.strays text current) :=
  inferInstanceAs (Decidable (_ ∨ _ ∨ _ ∨ ∃ next ∈ (h.request.wanted text current).toOption, _))

/-- An account does not join an organization while a handler of another one is engaged with it, and
a shared account that is read is active and plainly spelled. -/
def Apart (s : System text) : Action → Prop
  | .join organizationID userID _ => s.db.isMember organizationID userID = false →
      ∀ h ∈ s.handlers, h.userID = userID → h.organizationID ≠ organizationID → h.engaged = false
  | .advance k => ∀ h ∈ s.handlers[k]?, h.point = .read →
      s.db.sharedBeyond h.organizationID h.userID = true →
        ∀ current ∈ s.db.scimUserByID h.organizationID h.userID, ¬ h.strays text current
  | _ => True

instance (s : System text) : ∀ a, Decidable (Apart s a)
  | .join organizationID userID _ =>
    inferInstanceAs (Decidable (s.db.isMember organizationID userID = false →
      ∀ h ∈ s.handlers, h.userID = userID → h.organizationID ≠ organizationID →
        h.engaged = false))
  | .advance k => inferInstanceAs (Decidable (∀ h ∈ s.handlers[k]?, h.point = .read →
      s.db.sharedBeyond h.organizationID h.userID = true →
        ∀ current ∈ s.db.scimUserByID h.organizationID h.userID, ¬ h.strays text current))
  | .arrive .. | .fail _ | .signIn _ | .rotate .. | .logout .. | .tick _ => isTrue trivial

def Handler.Passive (db : Database text) (h : Handler) : Prop :=
  match h.point with
  | .create _ | .read | .memberships .. | .answered .. => True
  | .replace next => next.active = true ∧
      db.profile h.userID = some (text.normalize next.email, text.trim next.externalID, true)
  | .reread _ => ∃ email externalID, db.profile h.userID = some (email, externalID, true)
  | .stage | .revokeFirst _ | .revoke | .deactivate | .confirm _ => False

structure System.Confined (s : System text) : Prop where
  referenced : s.db.Referenced
  member : ∀ h ∈ s.handlers, h.engaged = true →
    s.db.isMember h.organizationID h.userID = true
  passive : ∀ h ∈ s.handlers, s.db.sharedBeyond h.organizationID h.userID = true → h.Passive s.db

theorem passive_of_not_engaged (hidle : h.engaged = false) : h.Passive db := by
  unfold Handler.engaged at hidle
  unfold Handler.Passive
  split at hidle <;> simp_all

structure MembersGrow (db db' : Database text) (h : Handler) : Prop where
  member : ∀ organizationID userID, db.isMember organizationID userID = true →
    db'.isMember organizationID userID = true
  shared : ∀ organizationID userID, db'.sharedBeyond organizationID userID = true →
    db.sharedBeyond organizationID userID = true ∨
      (userID = h.userID ∧ organizationID ≠ h.organizationID ∧ db.users.byID userID = none)
  referenced : db.Referenced → db'.Referenced

theorem MembersGrow.ofUpdate {f : UserRow → UserRow} {id : String}
    (hwrite : db.users.update id f = some users) (hf : ∀ row, (f row).id = row.id)
    (husers : db'.users = users) (hmembers : db'.members = db.members) : MembersGrow db db' h where
  member := by simp only [Database.isMember, Database.memberRole, hmembers, imp_self, implies_true]
  shared organizationID userID hshared := by
    rw [Database.sharedBeyond, hmembers] at hshared
    exact .inl hshared
  referenced href m hm := by
    rw [husers, byID_update hwrite hf, isSome_map]
    exact href m (hmembers ▸ hm)

theorem Effect.members (he : Effect db h db') : MembersGrow db db' h := by
  cases he with
  | none => exact ⟨fun _ _ h => h, fun _ _ h => .inl h, fun h => h⟩
  | replaces hpoint hwrite | deactivates hpoint hwrite =>
    exact .ofUpdate hwrite (fun _ => rfl) rfl rfl
  | @creates user users hpoint hwrite =>
    refine ⟨fun organizationID userID hmember => ?_, fun organizationID userID hshared => ?_,
      fun href m hm => ?_⟩
    · obtain ⟨m, hm, hboth⟩ := Database.isMember_iff.mp hmember
      exact Database.isMember_iff.mpr ⟨m, mem_append_left _ hm, hboth⟩
    · obtain ⟨m, hm, huser, horg⟩ := Database.sharedBeyond_iff.mp hshared
      rcases mem_append.mp hm with hold | hnew
      · exact .inl (Database.sharedBeyond_iff.mpr ⟨m, hold, huser, horg⟩)
      · rw [mem_singleton] at hnew
        have hid : h.userID = userID := by rw [← huser, hnew]
        refine .inr ⟨hid.symm, fun hsame => horg (by rw [hnew, hsame]), ?_⟩
        by_contra hthere
        rw [← hid] at hthere
        exact Database.not_insert_of_isSome (isSome_iff_ne_none.mpr hthere) hwrite
    · rw [byID_insert hwrite]
      rcases mem_append.mp hm with hold | hnew
      · obtain ⟨row, hrow⟩ := isSome_iff_exists.mp (href m hold)
        simp [hrow]
      · rw [mem_singleton] at hnew
        subst hnew
        cases db.users.byID h.userID <;> simp [Database.freshSCIMRow]

theorem Effect.own (he : Effect db h db') (href : db.Referenced)
    (hshared : db.sharedBeyond h.organizationID h.userID = true) (hpassive : h.Passive db) :
    db.SameAccount db' h.userID := by
  cases he with
  | none => exact .refl db h.userID
  | creates hpoint hwrite =>
    exact absurd hwrite (Database.not_insert_of_isSome (href.of_shared hshared))
  | @replaces next users hpoint hwrite =>
    refine ⟨?_, rfl⟩
    rw [Handler.Passive, hpoint] at hpassive
    obtain ⟨hactive, hprofile⟩ := hpassive
    obtain ⟨row, hrow, -⟩ := map_eq_some_iff.mp hprofile
    have hid := (byID_some hrow).2
    rw [hprofile, Database.profile, byID_update hwrite (fun _ => rfl), hrow]
    simp [hid, hactive, UserRow.disabled]
  | deactivates hpoint hwrite =>
    unfold Handler.deactivating at hpoint
    unfold Handler.Passive at hpassive
    split at hpoint <;> simp_all

theorem guarded_passive {current next : SCIMUser}
    (hread : db.scimUserByID h.organizationID h.userID = some current)
    (hplain : ¬ h.strays text current) (hwanted : h.request.wanted text current = .ok next) :
    Handler.Passive db { h with point := h.guarded text current next } := by
  simp only [Handler.strays, not_or, Bool.not_eq_false, ne_eq, not_not, not_exists,
    not_and] at hplain
  obtain ⟨hactive, hemail, hexternal, hspelled⟩ := hplain
  have hprofile : db.profile h.userID = some (current.email, current.externalID, true) := by
    unfold Database.scimUserByID at hread
    split_ifs at hread
    obtain ⟨row, hrow, rfl⟩ := map_eq_some_iff.mp hread
    simp only [UserRow.scim] at hactive
    simp [Database.profile, hrow, UserRow.scim, hactive]
  unfold Handler.guarded
  split_ifs with hdelete hsame
  · simp [hactive] at hdelete
  · obtain ⟨hfold, hext, hact⟩ := hsame
    have hnext : next.email = current.email :=
      hspelled next (by rw [hwanted]; rfl) hfold
    have hstay : next.active = true := hact.trans hactive
    have hadmitted : h.admitted current next = .replace next ∨ h.request = .delete := by
      unfold Handler.admitted
      cases h.request with
      | delete => exact .inr rfl
      | create | put | patch => exact .inl (by simp [hactive])
    rcases hadmitted with hreplace | hdelete
    · simp only [Handler.Passive, hreplace]
      exact ⟨hstay, by rw [hprofile, hnext, hext, hemail, hexternal]⟩
    · rw [hdelete] at hwanted
      cases hwanted
      cases hstay
  · trivial

theorem profile_active {email externalID : String} {current : SCIMUser}
    (hread : db.scimUserByID h.organizationID h.userID = some current)
    (hprofile : db.profile h.userID = some (email, externalID, true)) : current.active = true := by
  unfold Database.scimUserByID at hread
  split_ifs at hread
  obtain ⟨row, hrow, rfl⟩ := map_eq_some_iff.mp hread
  rw [Database.profile, hrow] at hprofile
  simp only [map_some, some.injEq, Prod.mk.injEq] at hprofile
  exact hprofile.2.2

theorem advance_passive (href : db.Referenced)
    (hshared : db.sharedBeyond h.organizationID h.userID = true) (hpassive : h.Passive db)
    (hplain : h.point = .read →
      ∀ current ∈ db.scimUserByID h.organizationID h.userID, ¬ h.strays text current)
    (hstep : h.advance db = some (db', h')) : h'.Passive db' := by
  have hown := (advance_effect hstep).own href hshared hpassive
  cases hp : h.point with
  | create user =>
    simp only [Handler.advance, hp] at hstep
    split at hstep
    · obtain ⟨users, hwrite, -⟩ := Database.scimCreateUser_ok ‹_›
      exact absurd hwrite (Database.not_insert_of_isSome (href.of_shared hshared))
    · cases hstep
      trivial
    · cases hstep
      trivial
  | read =>
    simp only [Handler.advance, hp, some.injEq] at hstep
    cases hstep
    cases hread : db.scimUserByID h.organizationID h.userID with
    | none => trivial
    | some current =>
      simp only
      split
      · trivial
      · exact guarded_passive hread (hplain hp current hread) ‹_›
  | memberships current next =>
    simp only [Handler.advance, hp, some.injEq] at hstep
    cases hstep
    have hmore : (db.organizationsOf h.userID).all (· = h.organizationID) = false := by
      obtain ⟨m, hm, huser, horg⟩ := Database.sharedBeyond_iff.mp hshared
      rw [List.all_eq_false]
      exact ⟨m.organization, List.mem_map.mpr ⟨m, mem_filter.mpr ⟨hm, by simp [huser]⟩, rfl⟩,
        by simp [horg]⟩
    simp only [hmore]
    trivial
  | replace next =>
    rw [Handler.Passive, hp] at hpassive
    simp only [Handler.advance, hp] at hstep
    split at hstep
    · cases hstep
      exact ⟨_, _, hown.profile.trans hpassive.2⟩
    · cases hstep
      trivial
    · cases hstep
      trivial
  | reread written =>
    rw [Handler.Passive, hp] at hpassive
    obtain ⟨email, externalID, hprofile⟩ := hpassive
    simp only [Handler.advance, hp, some.injEq] at hstep
    cases hstep
    cases hread : db.scimUserByID h.organizationID h.userID with
    | none => trivial
    | some replaced =>
      simp only [profile_active hread hprofile]
      trivial
  | stage | revokeFirst | revoke | deactivate | confirm =>
    rw [Handler.Passive, hp] at hpassive
    exact hpassive.elim
  | answered => simp [Handler.advance, hp] at hstep

theorem advance_member
    (hmember : h.engaged = true → db.isMember h.organizationID h.userID = true)
    (hstep : h.advance db = some (db', h')) (hengaged : h'.engaged = true) :
    db'.isMember h'.organizationID h'.userID = true := by
  obtain ⟨horg, huser⟩ := advance_request hstep
  rw [horg, huser]
  have hgrow := (advance_effect hstep).members
  cases hp : h.point with
  | create user =>
    simp only [Handler.advance, hp] at hstep
    split at hstep
    · cases hstep
      obtain ⟨users, -, hdb⟩ := Database.scimCreateUser_ok ‹_›
      rw [hdb]
      exact Database.isMember_iff.mpr
        ⟨_, mem_append_right _ (mem_singleton.mpr rfl), rfl, rfl⟩
    · cases hstep
      cases hengaged
    · cases hstep
      cases hengaged
  | read =>
    simp only [Handler.advance, hp, some.injEq] at hstep
    cases hstep
    cases hread : db.scimUserByID h.organizationID h.userID with
    | none =>
      rw [hread] at hengaged
      cases hengaged
    | some current =>
      unfold Database.scimUserByID at hread
      split_ifs at hread with hmem
      exact hmem
  | answered => simp [Handler.advance, hp] at hstep
  | memberships | replace | reread | stage | revokeFirst | revoke | deactivate | confirm =>
    exact hgrow.member _ _ (hmember (by simp [Handler.engaged, hp]))

theorem Handler.Passive.same (hpassive : h.Passive db) (hsame : db.SameAccount db' h.userID) :
    h.Passive db' := by
  unfold Handler.Passive at hpassive ⊢
  split at hpassive <;> simp_all [hsame.profile]

theorem start_not_engaged {organizationID userID : String} {request : Request} :
    Handler.engaged ⟨organizationID, userID, request, request.start text, none⟩ = false := by
  unfold Handler.engaged Request.start
  cases request with
  | create input seated =>
    simp only
    cases scimRequestUser text input true <;> rfl
  | put | patch | delete => rfl

theorem System.Confined.quiet (hs : s.Confined) (husers : db'.users = s.db.users)
    (hmembers : db'.members = s.db.members) : System.Confined ⟨db', s.handlers⟩ := by
  have hmember : ∀ organizationID userID, db'.isMember organizationID userID =
      s.db.isMember organizationID userID := fun _ _ => by
    rw [Database.isMember, Database.memberRole, hmembers]
    rfl
  refine ⟨fun m hm => ?_, fun h hh hengaged => ?_, fun h hh hshared => ?_⟩
  · rw [husers]
    exact hs.referenced m (hmembers ▸ hm)
  · rw [hmember]
    exact hs.member h hh hengaged
  · rw [Database.sharedBeyond, hmembers] at hshared
    have hpassive := hs.passive h hh hshared
    have hprofile : db'.profile h.userID = s.db.profile h.userID := by
      rw [Database.profile, husers, Database.profile]
    unfold Handler.Passive at hpassive ⊢
    split at hpassive <;> simp_all

theorem System.Confined.set {k : Nat} (hs : s.Confined) (hidle : h'.engaged = false) :
    System.Confined { s with handlers := s.handlers.set k h' } := by
  refine ⟨hs.referenced, fun h hh hengaged => ?_, fun h hh hshared => ?_⟩
  · rcases mem_or_eq_of_mem_set hh with hold | rfl
    · exact hs.member h hold hengaged
    · exact absurd hengaged (by simp [hidle])
  · rcases mem_or_eq_of_mem_set hh with hold | rfl
    · exact hs.passive h hold hshared
    · exact passive_of_not_engaged hidle

theorem System.Confined.other {other : Handler} (hs : s.Confined) (hh : h ∈ s.handlers)
    (hother : other ∈ s.handlers) (he : Effect s.db h db')
    (hshared : db'.sharedBeyond other.organizationID other.userID = true) : other.Passive db' := by
  cases hengaged : other.engaged with
  | false => exact passive_of_not_engaged hengaged
  | true =>
    have hmember := hs.member other hother hengaged
    rcases he.members.shared _ _ hshared with hbefore | ⟨-, -, hnone⟩
    · refine (hs.passive other hother hbefore).same ?_
      by_cases hsame : other.userID = h.userID
      · have hboth := Database.sharedBeyond_other h.organizationID hbefore hmember
        rw [hsame] at hboth ⊢
        exact he.own hs.referenced hboth (hs.passive h hh hboth)
      · exact he.others hsame
    · have hthere := hs.referenced.of_member hmember
      simp [hnone] at hthere

theorem step_confined {a : Action} (hs : s.Confined) (hcond : Apart s a)
    (hstep : s.step a = some t) : t.Confined := by
  cases a with
  | arrive organizationID userID request =>
    cases hstep
    refine ⟨hs.referenced, fun h hh hengaged => ?_, fun h hh hshared => ?_⟩
    · rcases mem_append.mp hh with hold | hnew
      · exact hs.member h hold hengaged
      · rw [mem_singleton.mp hnew, start_not_engaged] at hengaged
        cases hengaged
    · rcases mem_append.mp hh with hold | hnew
      · exact hs.passive h hold hshared
      · rw [mem_singleton.mp hnew]
        exact passive_of_not_engaged start_not_engaged
  | advance k =>
    simp only [System.step, bind_eq_bind, bind_eq_some_iff] at hstep
    obtain ⟨h, hk, ⟨db', h'⟩, hnext, hstep⟩ := hstep
    cases hstep
    have hh := mem_of_getElem? hk
    have he := advance_effect hnext
    refine ⟨he.members.referenced hs.referenced, fun other hother hengaged => ?_,
      fun other hother hshared => ?_⟩
    · rcases mem_or_eq_of_mem_set hother with hold | rfl
      · exact he.members.member _ _ (hs.member other hold hengaged)
      · exact advance_member (hs.member h hh) hnext hengaged
    · rcases mem_or_eq_of_mem_set hother with hold | rfl
      · exact hs.other hh hold he hshared
      · obtain ⟨horg, huser⟩ := advance_request hnext
        rw [horg, huser] at hshared
        rcases he.members.shared _ _ hshared with hbefore | ⟨-, hne, -⟩
        · exact advance_passive hs.referenced hbefore (hs.passive h hh hbefore)
            (fun hp => hcond h hk hp hbefore) hnext
        · exact absurd rfl hne
  | fail k =>
    simp only [System.step, bind_eq_bind, bind_eq_some_iff] at hstep
    obtain ⟨h, hk, hstep⟩ := hstep
    split at hstep
    · cases hstep
    · cases hstep
      exact hs.set rfl
  | signIn session =>
    obtain ⟨db', hinsert, rfl⟩ := map_eq_some_iff.mp hstep
    unfold Database.insertSession at hinsert
    split_ifs at hinsert
    cases hinsert
    exact hs.quiet rfl rfl
  | rotate =>
    cases hstep
    refine hs.quiet ?_ ?_ <;>
    · unfold Database.rotateSession
      split
      · rfl
      · split <;> rfl
  | logout | tick =>
    cases hstep
    exact hs.quiet rfl rfl
  | join organizationID userID role =>
    simp only [System.step] at hstep
    split_ifs at hstep with hthere
    cases hstep
    have hmem : ∀ m ∈ (s.db.addMember organizationID userID role).members,
        m ∈ s.db.members ∨ m = ⟨organizationID, userID, role⟩ := by
      intro m hm
      rcases mem_append.mp hm with hold | hnew
      · exact .inl (mem_filter.mp hold).1
      · exact .inr (mem_singleton.mp hnew)
    refine ⟨fun m hm => ?_, fun h hh hengaged => ?_, fun h hh hshared => ?_⟩
    · rcases hmem m hm with hold | rfl
      · exact hs.referenced m hold
      · exact hthere
    · obtain ⟨m, hm, horg, huser⟩ := Database.isMember_iff.mp (hs.member h hh hengaged)
      by_cases hsame : m.organization = organizationID ∧ m.user = userID
      · refine Database.isMember_iff.mpr ⟨⟨organizationID, userID, role⟩,
          mem_append_right _ (mem_singleton.mpr rfl), ?_, ?_⟩
        · exact hsame.1.symm.trans horg
        · exact hsame.2.symm.trans huser
      · exact Database.isMember_iff.mpr
          ⟨m, mem_append_left _ (mem_filter.mpr ⟨hm, decide_eq_true hsame⟩), horg, huser⟩
    · obtain ⟨m, hm, huser, horg⟩ := Database.sharedBeyond_iff.mp hshared
      rcases hmem m hm with hold | rfl
      · exact hs.passive h hh (Database.sharedBeyond_iff.mpr ⟨m, hold, huser, horg⟩)
      · cases hbefore : s.db.isMember organizationID userID with
        | false =>
          exact passive_of_not_engaged (hcond hbefore h hh huser.symm horg.symm)
        | true =>
          obtain ⟨own, hown, hownOrg, hownUser⟩ := Database.isMember_iff.mp hbefore
          exact hs.passive h hh (Database.sharedBeyond_iff.mpr
            ⟨own, hown, hownUser.trans huser, hownOrg.trans_ne horg⟩)

/-- In a run whose steps keep requests and joins apart, no handler changes the email, external id,
active flag or sessions of a member of another organization. -/
theorem provisioning_confined {run : List Action} {k : Nat} {userID : String}
    (href : db.Referenced) (hmeets : Meets System.step Apart (initial db) run)
    (hrun : exec System.step (initial db) run = some s) (hk : s.handlers[k]? = some h)
    (hstep : s.step (.advance k) = some t)
    (hshared : s.db.sharedBeyond h.organizationID userID = true) :
    s.db.SameAccount t.db userID := by
  have hs : s.Confined :=
    exec_invariant System.Confined (fun _ _ _ hs hcond hstep => step_confined hs hcond hstep)
      ⟨href, fun h hh => absurd hh not_mem_nil, fun h hh => absurd hh not_mem_nil⟩
      hmeets hrun
  simp only [System.step, hk, bind_eq_bind, bind_some, bind_eq_some_iff]
    at hstep
  obtain ⟨⟨db', h'⟩, hnext, hstep⟩ := hstep
  cases hstep
  have he := advance_effect hnext
  by_cases hsame : userID = h.userID
  · subst hsame
    exact he.own hs.referenced hshared (hs.passive h (mem_of_getElem? hk) hshared)
  · exact he.others hsame

def joins : Action := .join "other" "u" .viewer

def renames (email : String) : Request := .put ⟨"", email, "A", none, []⟩

def renamedThenShared : List Action :=
  [.arrive "organization" "u" (renames "b@x.y")] ++ List.replicate 4 (.advance 0) ++ [joins] ++
    [.arrive "organization" "u" (renames "b@x.y"), .advance 1]

theorem renamedThenShared_confined : ∃ s t : System plainText, ∃ h ∈ s.handlers[1]?,
    exec System.step (initial sampleDatabase) renamedThenShared = some s ∧
    s.step (.advance 1) = some t ∧ s.db.sharedBeyond h.organizationID "u" = true ∧
    s.db.profile "u" = some ("b@x.y", "", true) ∧ s.db.SameAccount t.db "u" := by
  obtain ⟨s, hs, hprofile, hstep, h, hk, hshared⟩ : ∃ s : System plainText,
      exec System.step (initial sampleDatabase) renamedThenShared = some s ∧
      s.db.profile "u" = some ("b@x.y", "", true) ∧ (s.step (.advance 1)).isSome ∧
      ∃ h ∈ s.handlers[1]?, s.db.sharedBeyond h.organizationID "u" = true := by decide
  obtain ⟨t, ht⟩ := isSome_iff_exists.mp hstep
  exact ⟨s, t, h, hk, hs, ht, hshared, hprofile,
    provisioning_confined (by decide) (by decide) hs hk ht hshared⟩

def System.trespasses (s : System text) (k : Nat) (userID : String) : Bool :=
  match s.handlers[k]?, s.step (.advance k) with
  | some h, some t => s.db.sharedBeyond h.organizationID userID &&
      (s.db.profile userID != t.db.profile userID ||
        s.db.sessionsOf userID != t.db.sessionsOf userID)
  | _, _ => false

def Trespassed (db : Database text) (run : List Action) (userID : String) : Prop :=
  ∃ s t : System text, ∃ h ∈ s.handlers[0]?, exec System.step (initial db) run = some s ∧
    s.step (.advance 0) = some t ∧ s.db.sharedBeyond h.organizationID userID = true ∧
    ¬ s.db.SameAccount t.db userID

theorem trespassed_of_run {run : List Action} {userID : String}
    (hlast : ∃ s, exec System.step (initial db) run = some s ∧ s.trespasses 0 userID) :
    Trespassed db run userID := by
  obtain ⟨s, hs, htrespasses⟩ := hlast
  unfold System.trespasses at htrespasses
  split at htrespasses
  · rename_i h t hk ht
    simp only [Bool.and_eq_true, Bool.or_eq_true, bne_iff_ne] at htrespasses
    obtain ⟨hshared, hchanged⟩ := htrespasses
    refine ⟨s, t, h, hk, hs, ht, hshared, fun hsame => ?_⟩
    rcases hchanged with hprofile | hsessions
    · exact hprofile hsame.profile.symm
    · exact hsessions hsame.sessions.symm
  · cases htrespasses

def foldingText : Text :=
  let fold (c : Char) : Char := if c = 'ſ' then 's' else c
  { plainText with equalFold := fun a b => a.toList.map fold == b.toList.map fold }

def sharedDatabase (text : Text) (change : UserRow → UserRow) : Database text :=
  { now := 1, users := ⟨[change passwordRow], pairwise_singleton _ _⟩, organizations := [],
    members := [⟨"organization", "u", .viewer⟩, ⟨"other", "u", .viewer⟩],
    sessions := [⟨"session", "u", "access", "refresh", [], 10, 20, false⟩], apiKeys := [] }

/-- An account joins another organization between the guard and the write of a PUT or a DELETE, or
before the deactivation of a new one; a PUT respells the address of a shared account; and a DELETE
revokes the session of an inactive one. -/
theorem shared_accounts_changed :
    Trespassed sampleDatabase
      [.arrive "organization" "u" (renames "b@x.y"), .advance 0, .advance 0, joins] "u" ∧
    Trespassed sampleDatabase
      [.arrive "organization" "u" .delete, .advance 0, .advance 0, joins] "u" ∧
    Trespassed sampleDatabase
      [.arrive "organization" "new" (.create ⟨"", "b@x.y", "B", some false, []⟩ true), .advance 0,
        .join "other" "new" .viewer] "new" ∧
    Trespassed (sharedDatabase foldingText fun row => { row with email := "as@x.y" })
      [.arrive "organization" "u" (renames "aſ@x.y"), .advance 0] "u" ∧
    Trespassed (sharedDatabase plainText fun row => { row with disabledAt := some 0 })
      [.arrive "organization" "u" .delete, .advance 0] "u" := by
  refine ⟨trespassed_of_run ?_, trespassed_of_run ?_, trespassed_of_run ?_, trespassed_of_run ?_,
    trespassed_of_run ?_⟩ <;> decide

end Directory

end Shiftgate.Accounts
