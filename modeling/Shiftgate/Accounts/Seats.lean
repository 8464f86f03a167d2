import Shiftgate.Accounts.Deactivation
import Shiftgate.Billing.Entitlements

/-! Seats: the transactions of `internal/database` that add active members, and their ceiling. The
member endpoint reads it before its transaction, and a reactivation by the directory does not look
at it. -/

namespace Shiftgate.Accounts

open Library Billing List Option Database Users

variable {text : Text}

/-- `SeatCeiling`; zero or less means unlimited. -/
def seatCeiling (plan : Plan) (purchasedSeats : Int) : Int :=
  if plan.includedSeats > 0 then
    if purchasedSeats < plan.includedSeats then plan.includedSeats else purchasedSeats
  else if plan.perSeat then purchasedSeats
  else 0

def Database.activeMembers (db : Database text) (organizationID : String) : Nat :=
  db.members.countP fun m => m.organization = organizationID && db.enabled m.user

structure PendingAdd where
  organizationID : String
  email : String
  role : Role
  seatCeiling : Int

structure Roster (text : Text) where
  db : Database text
  entitlements : FileTable (String × Int)
  pending : List PendingAdd

inductive AddError where
  | notFound
  | ownerRoleImmutable
  | seatCeilingExceeded

def Database.addMemberWithin (db : Database text) (organizationID email : String) (role : Role)
    (ceiling : Int) : Except AddError (Database text) :=
  match (db.users.byEmail email).filter (!·.disabled) with
  | none => .error .notFound
  | some user =>
    if db.memberRole organizationID user.id = some .owner ∧ role ≠ .owner then
      .error .ownerRoleImmutable
    else if db.memberRole organizationID user.id = none ∧ ceiling > 0 ∧
        db.activeMembers organizationID + 1 > ceiling then
      .error .seatCeilingExceeded
    else .ok (db.addMember organizationID user.id role)

namespace Roster

def ceiling (s : Roster text) (organizationID : String) : Int :=
  match s.entitlements.get organizationID with
  | none => 0
  | some (plan, seats) =>
    match findPlan plan with
    | some known => seatCeiling known seats
    | none => 0

def hasSeat (s : Roster text) (organizationID : String) : Bool :=
  s.ceiling organizationID ≤ 0 || s.db.activeMembers organizationID + 1 ≤ s.ceiling organizationID

def commit {ε : Type} (s : Roster text) : Except ε (Database text) → Roster text
  | .ok db => { s with db }
  | .error _ => s

end Roster

inductive SeatAction where
  | readCeiling (organizationID email : String) (role : Role)
  | addMember (request : Nat)
  | scimCreate (organizationID userID : String) (user : SCIMUser)
  | scimReplace (organizationID userID : String) (user : SCIMUser)
  | scimSetActive (organizationID userID : String) (active : Bool)
  | ssoLogin (issuer subject email displayName newID : String)
  | setEntitlement (organizationID plan : String) (seats : Int)

def Roster.step (s : Roster text) : SeatAction → Option (Roster text)
  | .readCeiling organizationID email role =>
    (s.entitlements.get organizationID).map fun _ =>
      { s with pending := s.pending ++ [⟨organizationID, email, role, s.ceiling organizationID⟩] }
  | .addMember request =>
    s.pending[request]?.map fun add =>
      ({ s with pending := s.pending.eraseIdx request } : Roster text).commit
        (s.db.addMemberWithin add.organizationID add.email add.role add.seatCeiling)
  | .scimCreate organizationID userID user =>
    some (s.commit (s.db.scimCreateUser organizationID userID user (s.hasSeat organizationID)))
  | .scimReplace organizationID userID user =>
    some (s.commit (s.db.scimReplaceUser organizationID userID user))
  | .scimSetActive organizationID userID active =>
    some { s with db := (s.db.scimSetActive organizationID userID active).getD s.db }
  | .ssoLogin issuer subject email displayName newID =>
    some (s.commit ((s.db.federateSSOLink issuer subject email displayName newID
      fun organizationID => !s.hasSeat organizationID).map (·.2)))
  | .setEntitlement organizationID plan seats =>
    some { s with entitlements := s.entitlements.set organizationID (plan, seats) }

def Roster.GrowsWithin (s t : Roster text) : Prop :=
  ∀ organizationID, s.db.activeMembers organizationID < t.db.activeMembers organizationID →
    t.ceiling organizationID ≤ 0 ∨
      (t.db.activeMembers organizationID : Int) ≤ t.ceiling organizationID

def Roster.seatsFor (s : Roster text) (userID : String) : Bool :=
  s.db.enabled userID || (s.db.organizationsOf userID).all s.hasSeat

/-- The member endpoint adds nobody, or the ceiling it read is no weaker than the one in force; and
an account is reactivated only where all its organizations have a seat. -/
def Roster.careful (s : Roster text) : SeatAction → Bool
  | .addMember request =>
    s.pending[request]?.all fun add =>
      (s.db.users.byEmail add.email).any
          (fun user => (s.db.memberRole add.organizationID user.id).isSome) ||
        s.ceiling add.organizationID ≤ 0 ||
        0 < add.seatCeiling && add.seatCeiling ≤ s.ceiling add.organizationID
  | .scimReplace _ userID user => !user.active || s.seatsFor userID
  | .scimSetActive _ userID active => !active || s.seatsFor userID
  | _ => true

structure Database.Keyed (db : Database text) : Prop where
  organizations : (db.organizations.map (·.id)).Nodup
  members : (db.members.map fun m => (m.organization, m.user)).Nodup
  accounts : ∀ m ∈ db.members, (db.users.byID m.user).isSome

section Counts

variable {db db' : Database text} {organizationID userID : String}

theorem countP_or_le {α : Type} (p q : α → Bool) (l : List α) :
    l.countP (fun a => p a || q a) ≤ l.countP p + l.countP q := by
  induction l with
  | nil => simp
  | cons a rest ih =>
    simp only [countP_cons]
    cases p a <;> cases q a <;> simp <;> omega

theorem Database.Keyed.countP_pair (h : db.Keyed) (organizationID userID : String) :
    db.members.countP (fun m => m.organization = organizationID && m.user = userID) ≤ 1 := by
  have hcount := nodup_iff_count_le_one.mp h.members (organizationID, userID)
  rw [List.count, countP_map] at hcount
  refine le_trans (le_of_eq (countP_congr fun m _ => ?_)) hcount
  simp [Prod.ext_iff]

theorem Database.memberRole_eq_none :
    db.memberRole organizationID userID = none ↔
      ∀ m ∈ db.members, ¬ (m.organization = organizationID ∧ m.user = userID) := by
  simp [memberRole]

theorem Database.memberRole_isSome :
    (db.memberRole organizationID userID).isSome ↔
      ∃ m ∈ db.members, m.organization = organizationID ∧ m.user = userID := by
  simp [memberRole]

theorem Database.activeMembers_le (hmembers : db'.members = db.members)
    (h : ∀ m ∈ db.members, db'.enabled m.user = true → db.enabled m.user = true) :
    db'.activeMembers organizationID ≤ db.activeMembers organizationID := by
  rw [activeMembers, activeMembers, hmembers]
  refine countP_mono_left fun m hm hp => ?_
  simp only [Bool.and_eq_true] at hp ⊢
  exact ⟨hp.1, h m hm hp.2⟩

theorem Database.activeMembers_le_succ (hkeys : db.Keyed) (userID : String)
    (hmembers : db'.members = db.members)
    (h : ∀ m ∈ db.members, db'.enabled m.user = true →
      db.enabled m.user = true ∨ m.user = userID) :
    db'.activeMembers organizationID ≤ db.activeMembers organizationID + 1 := by
  rw [activeMembers, hmembers]
  calc db.members.countP (fun m => m.organization = organizationID && db'.enabled m.user)
      ≤ db.members.countP (fun m => (m.organization = organizationID && db.enabled m.user) ||
          (m.organization = organizationID && m.user = userID)) := by
        refine countP_mono_left fun m hm hp => ?_
        simp only [Bool.and_eq_true, Bool.or_eq_true, decide_eq_true_eq] at hp ⊢
        rcases h m hm hp.2 with henabled | huser
        · exact .inl ⟨hp.1, henabled⟩
        · exact .inr ⟨hp.1, huser⟩
    _ ≤ _ := (countP_or_le ..).trans (Nat.add_le_add_left (hkeys.countP_pair ..) _)

variable {f : UserRow → UserRow}

theorem Database.enabled_update {users : Users text} {id : String}
    (h : db.users.update id f = some users) (hf : ∀ row, (f row).id = row.id) (hne : userID ≠ id) :
    (users.byID userID).any (fun row => !row.disabled) = db.enabled userID := by
  rw [byID_update h hf, enabled]
  cases hfound : db.users.byID userID with
  | none => rfl
  | some row =>
    have hid := (byID_some hfound).2
    simp [hid, hne]

theorem Database.enabled_update_same {users : Users text} {id : String}
    (h : db.users.update id f = some users) (hf : ∀ row, (f row).id = row.id)
    (hdisabled : ∀ row, (f row).disabled = row.disabled) :
    (users.byID userID).any (fun row => !row.disabled) = db.enabled userID := by
  rw [byID_update h hf, enabled, Option.any_map]
  congr 1
  funext row
  show (!(if row.id = id then f row else row).disabled) = !row.disabled
  split_ifs
  · rw [hdisabled]
  · rfl

theorem Database.enabled_insert {users : Users text} {row : UserRow}
    (h : db.users.insert row = some users) (hold : (db.users.byID userID).isSome) :
    (users.byID userID).any (fun row => !row.disabled) = db.enabled userID := by
  obtain ⟨found, hfound⟩ := isSome_iff_exists.mp hold
  rw [byID_insert h, enabled, hfound]
  rfl

end Counts

section Steps

variable {s t : Roster text} {db db' : Database text} {users : Users text}
  {organizationID userID : String}

theorem Database.Keyed.update {id : String} (h : db.Keyed)
    (hwrite : db.users.update id f = some users) (hf : ∀ row, (f row).id = row.id)
    (horganizations : db'.organizations = db.organizations) (hmembers : db'.members = db.members)
    (husers : db'.users = users) : db'.Keyed where
  organizations := horganizations ▸ h.organizations
  members := hmembers ▸ h.members
  accounts m hm := by
    rw [hmembers] at hm
    rw [husers, byID_update hwrite hf, isSome_map]
    exact h.accounts m hm

/-- The directory's updates of an account: where it is enabled, every organization it belongs to
must have a seat. -/
theorem growsWithin_update (hkeys : s.db.Keyed) (hwrite : s.db.users.update userID f = some users)
    (hf : ∀ row, (f row).id = row.id) (hmembers : db'.members = s.db.members)
    (husers : db'.users = users)
    (hseats : (∀ row, (f row).disabled = true) ∨ s.seatsFor userID = true) :
    s.GrowsWithin { s with db := db' } := by
  have henabled : ∀ u, db'.enabled u = (users.byID u).any fun row => !row.disabled :=
    fun u => by rw [enabled, husers]
  have hother : ∀ u, u ≠ userID → db'.enabled u = s.db.enabled u :=
    fun u hu => (henabled u).trans (enabled_update hwrite hf hu)
  intro organizationID hgrows
  by_cases hsame : db'.enabled userID = true → s.db.enabled userID = true
  · refine absurd (activeMembers_le hmembers fun m _ hm => ?_) (not_le.mpr hgrows)
    by_cases hu : m.user = userID
    · rw [hu] at hm ⊢
      exact hsame hm
    · rwa [hother m.user hu] at hm
  · -- the account is enabled by this update
    push Not at hsame
    obtain ⟨hon, hoff⟩ := hsame
    have hroom : s.hasSeat organizationID = true := by
      have hall : (s.db.organizationsOf userID).all s.hasSeat = true := by
        rcases hseats with hdisables | hseats
        · rw [henabled, byID_update hwrite hf, Option.any_map] at hon
          obtain ⟨row, hrow, hactive⟩ := (Option.any_eq_true _ _).mp hon
          have hid := (byID_some hrow).2
          simp [hid, hdisables] at hactive
        · simpa [Roster.seatsFor, hoff] using hseats
      refine List.all_eq_true.mp hall organizationID ?_
      by_contra hmember
      refine absurd (?_ : db'.activeMembers organizationID ≤ s.db.activeMembers organizationID)
        (not_le.mpr hgrows)
      rw [activeMembers, activeMembers, hmembers]
      refine countP_mono_left fun m hm hp => ?_
      simp only [Bool.and_eq_true, decide_eq_true_eq] at hp ⊢
      refine ⟨hp.1, ?_⟩
      rw [← hother m.user]
      · exact hp.2
      · intro hu
        refine hmember (List.mem_map.mpr ⟨m, mem_filter.mpr ⟨hm, by simpa using hu⟩, hp.1⟩)
    have hcount : db'.activeMembers organizationID ≤ s.db.activeMembers organizationID + 1 := by
      refine activeMembers_le_succ hkeys userID hmembers fun m _ hm => ?_
      by_cases hu : m.user = userID
      · exact .inr hu
      · exact .inl (by rwa [hother m.user hu] at hm)
    simp only [Roster.hasSeat, Bool.or_eq_true, decide_eq_true_eq] at hroom
    rcases hroom with hfree | hle
    · exact .inl hfree
    · refine .inr (le_trans ?_ hle)
      show (db'.activeMembers organizationID : Int) ≤ _
      omega

theorem Roster.GrowsWithin.refl (s : Roster text) : s.GrowsWithin s :=
  fun _ h => absurd h (lt_irrefl _)

variable {email subject displayName : String} {user : UserRow} {full : String → Bool}

theorem addMemberWithin_ok {role : Role} {ceiling : Int}
    (h : db.addMemberWithin organizationID email role ceiling = .ok db') :
    ∃ user, db.users.byEmail email = some user ∧ user.disabled = false ∧
      db' = db.addMember organizationID user.id role ∧
      (db.memberRole organizationID user.id = none → ceiling > 0 →
        (db.activeMembers organizationID + 1 : Int) ≤ ceiling) := by
  unfold addMemberWithin at h
  split at h
  · cases h
  · rename_i user hfound
    obtain ⟨hemail, hactive⟩ := filter_eq_some_iff.mp hfound
    split_ifs at h with howner hfull
    cases h
    refine ⟨user, hemail, by simpa using hactive, rfl, fun hnew hpos => ?_⟩
    by_contra hlt
    exact hfull ⟨hnew, hpos, not_le.mp hlt⟩

theorem members_addMember (role : Role) :
    (db.addMember organizationID userID role).members =
      (db.members.filter fun m => ¬ (m.organization = organizationID ∧ m.user = userID)) ++
        [⟨organizationID, userID, role⟩] := rfl

theorem activeMembers_addMember (db : Database text) (organizationID userID : String) (role : Role)
    (other : String) :
    (db.addMember organizationID userID role).activeMembers other ≤
      db.activeMembers other + if other = organizationID then 1 else 0 := by
  rw [activeMembers, members_addMember, countP_append]
  refine Nat.add_le_add ?_ ?_
  · exact (filter_sublist).countP_le
  · by_cases hother : other = organizationID
    · rw [if_pos hother]
      exact countP_le_length
    · simp [Ne.symm hother, hother]

theorem activeMembers_addMember_again (role : Role) (henabled : db.enabled userID = true)
    (hmember : (db.memberRole organizationID userID).isSome) :
    (db.addMember organizationID userID role).activeMembers organizationID ≤
      db.activeMembers organizationID := by
  obtain ⟨m, hm, hpair⟩ := memberRole_isSome.mp hmember
  have hsplit := countP_eq_countP_filter_add db.members
    (fun m => m.organization = organizationID && db.enabled m.user)
    (fun m => ¬ (m.organization = organizationID ∧ m.user = userID))
  have hpos : 0 < (db.members.filter fun m =>
        !decide ¬ (m.organization = organizationID ∧ m.user = userID)).countP
      (fun m => m.organization = organizationID && db.enabled m.user) := by
    refine countP_pos_iff.mpr ⟨m, mem_filter.mpr ⟨hm, by simp [hpair]⟩, ?_⟩
    simp [hpair, henabled]
  rw [activeMembers, members_addMember, countP_append]
  have hone : [(⟨organizationID, userID, role⟩ : Member)].countP
      (fun m => m.organization = organizationID && db.enabled m.user) ≤ 1 := countP_le_length
  rw [activeMembers]
  have hsame : (db.addMember organizationID userID role).enabled = db.enabled := rfl
  rw [hsame]
  omega

theorem Database.Keyed.addMember (h : db.Keyed) (role : Role)
    (huser : (db.users.byID userID).isSome) :
    (db.addMember organizationID userID role).Keyed where
  organizations := h.organizations
  members := by
    rw [members_addMember, map_append]
    refine (h.members.sublist (filter_sublist.map _)).append (nodup_singleton _) ?_
    simp only [map_singleton, disjoint_singleton, List.mem_map, mem_filter,
      decide_eq_true_eq, Prod.mk.injEq]
    rintro ⟨m, ⟨-, hnot⟩, hpair⟩
    exact hnot hpair
  accounts m hm := by
    rw [members_addMember] at hm
    rcases mem_append.mp hm with hold | hnew
    · exact h.accounts m (mem_filter.mp hold).1
    · cases mem_singleton.mp hnew
      exact huser

theorem scimCreateUser_step {user : SCIMUser} {seated : Bool} (hkeys : db.Keyed)
    (h : db.scimCreateUser organizationID userID user seated = .ok db') :
    seated = true ∧ db'.Keyed ∧ ∀ other, db'.activeMembers other ≤
      db.activeMembers other + if other = organizationID then 1 else 0 := by
  have hseated : seated = true := by
    cases seated
    · simp [scimCreateUser] at h
    · rfl
  obtain ⟨users, hwrite, rfl⟩ := scimCreateUser_ok h
  have hfresh : ∀ m ∈ db.members, m.user ≠ userID := by
    intro m hm hu
    obtain ⟨row, hrow⟩ := isSome_iff_exists.mp (hkeys.accounts m hm)
    obtain ⟨hmem, hid⟩ := byID_some hrow
    exact insert_fresh hwrite hmem (hid.trans hu)
  refine ⟨hseated, ⟨hkeys.organizations, ?_, fun m hm => ?_⟩, fun other => ?_⟩
  · simp only [map_append, map_singleton]
    refine hkeys.members.append (nodup_singleton _) ?_
    simp only [disjoint_singleton, List.mem_map, Prod.mk.injEq]
    rintro ⟨m, hm, -, hu⟩
    exact hfresh m hm hu
  · rw [byID_insert hwrite]
    rcases mem_append.mp hm with hold | hnew
    · simp [hkeys.accounts m hold]
    · cases mem_singleton.mp hnew
      simp [freshSCIMRow]
  · simp only [activeMembers, countP_append]
    refine Nat.add_le_add (le_of_eq (countP_congr fun m hm => ?_)) ?_
    · show (_ && (users.byID m.user).any fun row => !row.disabled) = true ↔ _
      rw [enabled_insert hwrite (hkeys.accounts m hm)]
    · by_cases hother : other = organizationID
      · rw [if_pos hother]
        exact countP_le_length
      · simp [Ne.symm hother, hother]

theorem SSOOutcome.enabled {issuer newID : String}
    (h : SSOOutcome db.users issuer subject email displayName newID user users)
    (hold : (db.users.byID userID).isSome) :
    (users.byID userID).isSome ∧
      (users.byID userID).any (fun row => !row.disabled) = db.enabled userID := by
  cases h with
  | linked hlink => exact ⟨hold, rfl⟩
  | renamed hlink hwrite | joined hlink hemail hfree hwrite =>
    refine ⟨?_, enabled_update_same hwrite (fun _ => rfl) fun _ => rfl⟩
    rwa [byID_update hwrite fun _ => rfl, isSome_map]
  | created hlink hemail hwrite =>
    refine ⟨?_, enabled_insert hwrite hold⟩
    rw [byID_insert hwrite]
    simp [hold]

theorem SSOOutcome.byID {issuer newID : String}
    (h : SSOOutcome db.users issuer subject email displayName newID user users) :
    (users.byID user.id).isSome := by
  cases h with
  | linked hlink =>
    rw [byID_of_mem (byLink_some hlink).1]
    rfl
  | renamed hlink hwrite =>
    rw [byID_update hwrite fun _ => rfl, byID_of_mem (byLink_some hlink).1]
    rfl
  | joined hlink hemail hfree hwrite =>
    rw [byID_update hwrite fun _ => rfl, byID_of_mem (byEmail_some hemail).1]
    rfl
  | created hlink hemail hwrite =>
    rw [byID_insert hwrite]
    simp [freshSSORow]

/-- Single sign-on makes the account join organizations that have a seat and did not have it. -/
theorem federateSSOLink_members {issuer newID : String}
    (h : db.federateSSOLink issuer subject email displayName newID full = .ok (user, db')) :
    ∃ joined : List Organization, joined.Sublist db.organizations ∧
      (∀ o ∈ joined, full o.id = false ∧ db.memberRole o.id user.id = none) ∧
      db'.members = db.members ++ joined.map fun o => ⟨o.id, user.id, .viewer⟩ := by
  unfold federateSSOLink at h
  split at h
  · cases h
  · rename_i found users hresolve
    split_ifs at h with hdisabled
    cases h
    unfold ensureSSOMemberships
    simp only
    split
    · exact ⟨[], nil_sublist _, nofun, by simp⟩
    · refine ⟨_, filter_sublist, fun o ho => ?_, rfl⟩
      have hcond := (mem_filter.mp ho).2
      simp only [Bool.and_eq_true, isNone_iff_eq_none, Bool.not_eq_true'] at hcond
      exact ⟨hcond.2, hcond.1.2⟩

theorem ssoLogin_step {issuer newID : String} (hkeys : db.Keyed)
    (h : db.federateSSOLink issuer subject email displayName newID full = .ok (user, db')) :
    db'.Keyed ∧ ∀ other, db'.activeMembers other ≤ db.activeMembers other ∨
      db'.activeMembers other ≤ db.activeMembers other + 1 ∧ full other = false := by
  obtain ⟨joined, hsublist, hjoined, hmembers⟩ := federateSSOLink_members h
  obtain ⟨houtcome, -, horganizations, -⟩ := federateSSOLink_ok h
  have hids : (joined.map (·.id)).Nodup := hkeys.organizations.sublist (hsublist.map _)
  refine ⟨⟨horganizations ▸ hkeys.organizations, ?_, fun m hm => ?_⟩, fun other => ?_⟩
  · rw [hmembers, map_append, List.map_map]
    refine hkeys.members.append ?_ ?_
    · have hpairs : (joined.map fun o => (o.id, user.id)) =
          (joined.map (·.id)).map fun id => (id, user.id) := by simp
      show (joined.map fun o => (o.id, user.id)).Nodup
      rw [hpairs]
      exact hids.map fun a b hab => (Prod.mk.inj hab).1
    · intro pair hold hnew
      obtain ⟨m, hm, rfl⟩ := List.mem_map.mp hold
      obtain ⟨o, ho, hpair⟩ := List.mem_map.mp hnew
      simp only [Function.comp_apply, Prod.mk.injEq] at hpair
      exact memberRole_eq_none.mp (hjoined o ho).2 m hm ⟨hpair.1.symm, hpair.2.symm⟩
  · rw [hmembers] at hm
    rcases mem_append.mp hm with hold | hnew
    · exact (houtcome.enabled (hkeys.accounts m hold)).1
    · obtain ⟨o, -, rfl⟩ := List.mem_map.mp hnew
      exact houtcome.byID
  · have hold : db.members.countP (fun m => m.organization = other && db'.enabled m.user) =
        db.activeMembers other := by
      refine countP_congr fun m hm => ?_
      show (_ && (db'.users.byID m.user).any fun row => !row.disabled) = true ↔ _
      rw [(houtcome.enabled (hkeys.accounts m hm)).2]
    rw [activeMembers, hmembers, countP_append, hold, countP_map]
    by_cases hmem : other ∈ joined.map (·.id)
    · right
      obtain ⟨o, ho, rfl⟩ := List.mem_map.mp hmem
      refine ⟨Nat.add_le_add_left ?_ _, (hjoined o ho).1⟩
      have hcount := nodup_iff_count_le_one.mp hids o.id
      rw [List.count, countP_map] at hcount
      refine le_trans (countP_mono_left fun o' _ hp => ?_) hcount
      simp only [Function.comp_apply, Bool.and_eq_true, decide_eq_true_eq] at hp
      simp [hp.1]
    · left
      have hnone : joined.countP ((fun m : Member => decide (m.organization = other) &&
          db'.enabled m.user) ∘ fun o => ⟨o.id, user.id, .viewer⟩) = 0 := by
        rw [countP_eq_zero]
        intro o ho hp
        simp only [Function.comp_apply, Bool.and_eq_true, decide_eq_true_eq] at hp
        exact hmem (List.mem_map.mpr ⟨o, ho, hp.1⟩)
      rw [hnone, Nat.add_zero]

theorem within_of_hasSeat (hseat : s.hasSeat organizationID = true)
    (hcount : db'.activeMembers organizationID ≤ s.db.activeMembers organizationID + 1) :
    s.ceiling organizationID ≤ 0 ∨
      (db'.activeMembers organizationID : Int) ≤ s.ceiling organizationID := by
  simp only [Roster.hasSeat, Bool.or_eq_true, decide_eq_true_eq] at hseat
  omega

theorem step_within {a : SeatAction} (hkeys : s.db.Keyed) (hcareful : s.careful a = true)
    (hstep : s.step a = some t) : t.db.Keyed ∧ s.GrowsWithin t := by
  cases a with
  | readCeiling organizationID email role =>
    obtain ⟨-, -, rfl⟩ := map_eq_some_iff.mp hstep
    exact ⟨hkeys, .refl s⟩
  | addMember request =>
    obtain ⟨add, hadd, rfl⟩ := map_eq_some_iff.mp hstep
    cases hresult : s.db.addMemberWithin add.organizationID add.email add.role add.seatCeiling with
    | error e => exact ⟨hkeys, .refl s⟩
    | ok db' =>
      obtain ⟨user, hemail, hactive, rfl, hchecked⟩ := addMemberWithin_ok hresult
      have hrow := byID_of_mem (byEmail_some hemail).1
      have henabled : s.db.enabled user.id = true := by simp [enabled, hrow, hactive]
      refine ⟨hkeys.addMember add.role (by rw [hrow]; rfl), fun other hgrows => ?_⟩
      have hcount := activeMembers_addMember s.db add.organizationID user.id add.role other
      by_cases hother : other = add.organizationID
      · subst hother
        simp only [Roster.careful, hadd, all_some, hemail, any_some, Bool.or_eq_true,
          decide_eq_true_eq, Bool.and_eq_true] at hcareful
        rcases hcareful with (hmember | hfree) | ⟨hpos, hle⟩
        · exact absurd (activeMembers_addMember_again add.role henabled hmember)
            (not_le.mpr hgrows)
        · exact .inl hfree
        · right
          have hnew : s.db.memberRole add.organizationID user.id = none := by
            by_contra hsome
            exact absurd (activeMembers_addMember_again add.role henabled
              (isSome_iff_ne_none.mpr hsome)) (not_le.mpr hgrows)
          have hroom := hchecked hnew hpos
          rw [if_pos rfl] at hcount
          show (((s.db.addMember add.organizationID user.id add.role).activeMembers
            add.organizationID : Nat) : Int) ≤ s.ceiling add.organizationID
          omega
      · rw [if_neg hother, Nat.add_zero] at hcount
        exact absurd hcount (not_le.mpr hgrows)
  | scimCreate organizationID userID user =>
    cases hstep
    cases hresult : s.db.scimCreateUser organizationID userID user (s.hasSeat organizationID) with
    | error e => exact ⟨hkeys, .refl s⟩
    | ok db' =>
      obtain ⟨hseat, hkept, hcount⟩ := scimCreateUser_step hkeys hresult
      refine ⟨hkept, fun other hgrows => ?_⟩
      have hcount := hcount other
      by_cases hother : other = organizationID
      · subst hother
        rw [if_pos rfl] at hcount
        exact within_of_hasSeat (s := s) hseat hcount
      · rw [if_neg hother, Nat.add_zero] at hcount
        exact absurd hcount (not_le.mpr hgrows)
  | scimReplace organizationID userID user =>
    cases hstep
    cases hresult : s.db.scimReplaceUser organizationID userID user with
    | error e => exact ⟨hkeys, .refl s⟩
    | ok db' =>
      obtain ⟨-, users, hwrite, rfl⟩ := scimReplaceUser_ok hresult
      refine ⟨hkeys.update hwrite (fun _ => rfl) rfl rfl rfl,
        growsWithin_update hkeys hwrite (fun _ => rfl) rfl rfl ?_⟩
      simp only [Roster.careful, Bool.or_eq_true, Bool.not_eq_true'] at hcareful
      exact hcareful.imp_left fun hinactive row => by simp [UserRow.disabled, hinactive]
  | scimSetActive organizationID userID active =>
    cases hstep
    cases hresult : s.db.scimSetActive organizationID userID active with
    | none => exact ⟨hkeys, .refl s⟩
    | some db' =>
      obtain ⟨-, users, hwrite, rfl⟩ := scimSetActive_some hresult
      refine ⟨hkeys.update hwrite (fun _ => rfl) rfl rfl rfl,
        growsWithin_update hkeys hwrite (fun _ => rfl) rfl rfl ?_⟩
      simp only [Roster.careful, Bool.or_eq_true, Bool.not_eq_true'] at hcareful
      exact hcareful.imp_left fun hinactive row => by simp [UserRow.disabled, hinactive]
  | ssoLogin issuer subject email displayName newID =>
    cases hstep
    cases hresult : s.db.federateSSOLink issuer subject email displayName newID
        (fun organizationID => !s.hasSeat organizationID) with
    | error e => exact ⟨hkeys, .refl s⟩
    | ok result =>
      obtain ⟨hkept, hcount⟩ := ssoLogin_step hkeys hresult
      refine ⟨hkept, fun other hgrows => ?_⟩
      rcases hcount other with hle | ⟨hle, hseat⟩
      · exact absurd hle (not_le.mpr hgrows)
      · exact within_of_hasSeat (s := s) (by simpa using hseat) hle
  | setEntitlement organizationID plan seats =>
    cases hstep
    exact ⟨hkeys, fun other hgrows => absurd hgrows (lt_irrefl _)⟩

end Steps

theorem seats_grow_within_ceiling {s : Roster text} {actions : List SeatAction}
    (hkeys : s.db.Keyed)
    (hcareful : Meets Roster.step (fun s a => Roster.careful s a = true) s actions) :
    Meets Roster.step (fun s a => ∀ t, Roster.step s a = some t → s.GrowsWithin t) s actions := by
  exact .of_invariant (·.db.Keyed) (fun _ _ _ h hc hs => (step_within h hc hs).1)
    (fun _ _ h hc _ hs => (step_within h hc hs).2) hkeys hcareful

namespace Seated

def account (id : String) (disabledAt : Option Nat) : UserRow :=
  { id, email := id, passwordHash := "", displayName := id, disabledAt, externalID := id,
    ssoIssuer := "", ssoSubject := "", githubID := none, githubLogin := "" }

def accounts : List UserRow :=
  ["a", "b", "c", "d", "e"].map (account · none) ++ [account "f" (some 0), account "g" none]

def roster (seats : Int) : Roster plainText where
  db :=
    { now := 0, users := ⟨accounts, by decide⟩, organizations := [⟨"o", true, "o"⟩]
      members := ["a", "b", "c", "d", "e", "f"].map fun id => ⟨"o", id, .viewer⟩
      sessions := [], apiKeys := [] }
  entitlements := FileTable.empty.set "o" ("business", seats)
  pending := []

theorem keyed (seats : Int) : (roster seats).db.Keyed :=
  ⟨(by decide : (["o"] : List String).Nodup),
    (by decide : (["a", "b", "c", "d", "e", "f"].map fun id => ("o", id)).Nodup),
    (by decide : ∀ m ∈ (roster 0).db.members, ((roster 0).db.users.byID m.user).isSome)⟩

def reactivate : SeatAction := .scimSetActive "o" "f" true

def shrinking : List SeatAction :=
  [.readCeiling "o" "g" .viewer, .setEntitlement "o" "business" 5, .addMember 0]

def filling : List SeatAction :=
  [.readCeiling "o" "g" .viewer, .addMember 0, reactivate,
    .scimCreate "o" "h" ⟨"h", "h", "h", true⟩]

end Seated

theorem seats_grow_within_ceiling_sample :
    Meets Roster.step (fun s a => ∀ t, Roster.step s a = some t → s.GrowsWithin t)
      (Seated.roster 7) Seated.filling :=
  seats_grow_within_ceiling (Seated.keyed 7) (by decide)

/-- Six active members with five seats, by a reactivation and by a ceiling that has shrunk. -/
theorem seats_grow_past_ceiling :
    (∃ t, (Seated.roster 5).step Seated.reactivate = some t ∧
      (Seated.roster 5).db.activeMembers "o" = 5 ∧ t.db.activeMembers "o" = 6 ∧
      t.ceiling "o" = 5) ∧
    ∃ t, exec Roster.step (Seated.roster 6) Seated.shrinking = some t ∧
      (Seated.roster 6).db.activeMembers "o" = 5 ∧ t.db.activeMembers "o" = 6 ∧
      t.ceiling "o" = 5 := by
  decide

end Shiftgate.Accounts
