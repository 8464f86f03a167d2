import Shiftgate.Accounts.Deactivation

/-! The life of refresh tokens (`database/sessions.go`). Beside the tables, the state keeps every
digest handed out and every rotation that succeeded; the invariant ties the retired digests that a
row remembers to that history. -/

namespace Shiftgate.Accounts

open Library List

variable {text : Text}

namespace Database

def revokeSessionByRefreshToken (db : Database text) (refreshHash : String) : Database text :=
  { db with sessions := db.sessions.map fun session =>
      if session.refreshHash = refreshHash then { session with revoked := true } else session }

variable {db db' : Database text} {refreshHash nextAccess nextRefresh : String}
  {access refresh : Nat}

theorem rotateSession_rotated {session : SessionRow}
    (h : db.rotateSession refreshHash nextAccess nextRefresh access refresh =
      (db', .rotated session)) :
    ∃ current ∈ db.sessions, current.refreshHash = refreshHash ∧ current.revoked = false ∧
      session = { current with
        previousRefreshHashes := (current.refreshHash :: current.previousRefreshHashes).take 5,
        accessHash := nextAccess, refreshHash := nextRefresh, accessExpiresAt := access,
        refreshExpiresAt := min refresh current.refreshExpiresAt } ∧
      db' = { db with sessions := db.sessions.map fun s =>
        if s.id = current.id then session else s } := by
  unfold rotateSession at h
  split at h
  · rename_i current hfound
    cases h
    have hlive := find?_some hfound
    simp only [decide_eq_true_eq] at hlive
    exact ⟨current, mem_of_find?_eq_some hfound, hlive.1, hlive.2.1, rfl, rfl⟩
  · split at h <;> cases h

end Database

open Database

namespace Rotation

/-- The tables, the session of each digest, and the rotations, newest first: the session of each and
the digest it retired. -/
structure Ledger (text : Text) where
  db : Database text
  issued : String → Option String
  rotations : List (String × String)

inductive Move where
  | createSession (id userID accessHash refreshHash : String) (accessExpires refreshExpires : Nat)
  | rotateSession (refreshHash nextAccess nextRefresh : String) (accessExpires refreshExpires : Nat)
  | revokeSession (id userID : String)
  | revokeSessionByRefreshToken (refreshHash : String)
  | scimSetActive (organizationID userID : String) (active : Bool)
  | advance (duration : Nat)

def Move.drawn : Move → List String
  | .createSession _ _ accessHash refreshHash _ _ => [accessHash, refreshHash]
  | .rotateSession _ nextAccess nextRefresh _ _ => [nextAccess, nextRefresh]
  | _ => []

namespace Ledger

def start (db : Database text) : Ledger text := ⟨{ db with sessions := [] }, fun _ => none, []⟩

def issue (s : Ledger text) (id : String) (drawn : List String) (digest : String) : Option String :=
  if digest ∈ drawn then some id else s.issued digest

def step (s : Ledger text) (move : Move) : Option (Ledger text) :=
  match move with
  | .createSession id userID accessHash refreshHash accessExpires refreshExpires =>
    match s.db.insertSession ⟨id, userID, accessHash, refreshHash, [], accessExpires,
        refreshExpires, false⟩ with
    | none => some s
    | some db => some { s with db, issued := s.issue id move.drawn }
  | .rotateSession refreshHash nextAccess nextRefresh accessExpires refreshExpires =>
    match s.db.rotateSession refreshHash nextAccess nextRefresh accessExpires refreshExpires with
    | (db, .rotated session) =>
      some ⟨db, s.issue session.id move.drawn, (session.id, refreshHash) :: s.rotations⟩
    | (db, _) => some { s with db }
  | .revokeSession id userID => some { s with db := s.db.revokeSession id userID }
  | .revokeSessionByRefreshToken refreshHash =>
    some { s with db := s.db.revokeSessionByRefreshToken refreshHash }
  | .scimSetActive organizationID userID active =>
    some { s with db := (s.db.scimSetActive organizationID userID active).getD s.db }
  | .advance duration => some { s with db := { s.db with now := s.db.now + duration } }

def Fresh (s : Ledger text) (move : Move) : Prop :=
  ∀ digest ∈ move.drawn, s.issued digest = none

instance (s : Ledger text) (move : Move) : Decidable (s.Fresh move) :=
  inferInstanceAs (Decidable (∀ digest ∈ move.drawn, s.issued digest = none))

def retired (s : Ledger text) (id : String) : List String :=
  (s.rotations.filter fun p => p.1 = id).map (·.2)

structure Row (s : Ledger text) (row : SessionRow) : Prop where
  access : s.issued row.accessHash = some row.id
  refresh : s.issued row.refreshHash = some row.id
  previous : row.previousRefreshHashes = (s.retired row.id).take 5
  unspent : ∀ p ∈ s.rotations, p.2 ≠ row.refreshHash

structure Sound (s : Ledger text) : Prop where
  unique : s.db.sessionIDs.Nodup
  known : ∀ p ∈ s.rotations, s.issued p.2 = some p.1 ∧ p.1 ∈ s.db.sessionIDs
  once : (s.rotations.map (·.2)).Nodup
  rows : ∀ row ∈ s.db.sessions, s.Row row

def Precedes (s t : Ledger text) : Prop :=
  ∀ row ∈ s.db.sessions, ∃ later ∈ t.db.sessions, later.id = row.id ∧
    later.refreshExpiresAt ≤ row.refreshExpiresAt ∧ (row.revoked = true → later.revoked = true)

variable {s t : Ledger text} {row : SessionRow} {db : Database text} {move : Move} {id : String}

theorem ne_of_issued (hfresh : s.Fresh move) {digest drawn owner : String}
    (h : s.issued digest = some owner) (hdrawn : drawn ∈ move.drawn) : digest ≠ drawn := by
  rintro rfl
  rw [hfresh digest hdrawn] at h
  cases h

theorem issue_keeps (hfresh : s.Fresh move) {digest owner : String}
    (h : s.issued digest = some owner) : s.issue id move.drawn digest = some owner := by
  rw [issue, if_neg, h]
  exact fun hdrawn => ne_of_issued hfresh h hdrawn rfl

theorem revoked_sound (P : SessionRow → Prop) [DecidablePred P] (hs : s.Sound)
    (h : db.sessions = s.db.sessions.map fun row =>
      if P row then { row with revoked := true } else row) :
    ({ s with db } : Ledger text).Sound ∧ s.Precedes { s with db } := by
  have hf := Database.Follows.revoke hs.unique h
  refine ⟨⟨hf.unique, fun p hp => ⟨(hs.known p hp).1, hf.ids (hs.known p hp).2⟩, hs.once,
    fun row hrow => ?_⟩, fun row hrow => ⟨_, h ▸ mem_map_of_mem hrow, ?_⟩⟩
  · rw [h, mem_map] at hrow
    obtain ⟨old, hold, rfl⟩ := hrow
    obtain ⟨haccess, hrefresh, hprevious, hunspent⟩ := hs.rows old hold
    split_ifs <;> exact ⟨haccess, hrefresh, hprevious, hunspent⟩
  · split_ifs <;> simp

theorem granted_sound {next : SessionRow} (spent : List String) (hs : s.Sound)
    (hfresh : s.Fresh move) (hdrawn : move.drawn = [next.accessHash, next.refreshHash])
    (hf : s.db.Follows db) (hmem : next ∈ db.sessions)
    (hrows : ∀ row ∈ db.sessions, row = next ∨ row ∈ s.db.sessions ∧ row.id ≠ next.id)
    (hspent : ∀ digest ∈ spent, s.issued digest = some next.id)
    (honce : ((spent.map (next.id, ·) ++ s.rotations).map (·.2)).Nodup)
    (hprevious : next.previousRefreshHashes = (spent ++ s.retired next.id).take 5) :
    Sound ⟨db, s.issue next.id move.drawn, spent.map (next.id, ·) ++ s.rotations⟩ := by
  have hknown : ∀ p ∈ spent.map (next.id, ·) ++ s.rotations,
      s.issued p.2 = some p.1 ∧ p.1 ∈ db.sessionIDs := by
    intro p hp
    rcases mem_append.mp hp with hp | hp
    · obtain ⟨digest, hdigest, rfl⟩ := mem_map.mp hp
      exact ⟨hspent digest hdigest, mem_map_of_mem hmem⟩
    · exact ⟨(hs.known p hp).1, hf.ids (hs.known p hp).2⟩
  refine ⟨hf.unique, fun p hp => ⟨issue_keeps hfresh (hknown p hp).1, (hknown p hp).2⟩, honce,
    fun row hrow => ?_⟩
  obtain rfl | ⟨hold, hne⟩ := hrows row hrow
  · refine ⟨by simp [issue, hdrawn], by simp [issue, hdrawn], ?_, fun p hp =>
      ne_of_issued hfresh (hknown p hp).1 (by simp [hdrawn])⟩
    simp [hprevious, retired, filter_map, Function.comp_def]
  · obtain ⟨haccess, hrefresh, hprevious, hunspent⟩ := hs.rows row hold
    refine ⟨issue_keeps hfresh haccess, issue_keeps hfresh hrefresh, ?_, fun p hp hsame => ?_⟩
    · simp [hprevious, retired, filter_map, Function.comp_def, hne.symm]
    · rcases mem_append.mp hp with hp' | hp'
      · -- A digest has one owner, and this row is not the one.
        obtain ⟨digest, hdigest, rfl⟩ := mem_map.mp hp'
        rw [← hsame, hspent digest hdigest] at hrefresh
        exact hne (Option.some.inj hrefresh).symm
      · exact hunspent p hp' hsame

theorem step_sound (hs : s.Sound) (hfresh : s.Fresh move) (h : s.step move = some t) :
    t.Sound ∧ s.Precedes t := by
  have hsame : ∀ db : Database text, db.sessions = s.db.sessions →
      ({ s with db } : Ledger text).Sound ∧ s.Precedes { s with db } :=
    fun db heq => revoked_sound (fun _ => False) hs (by simp [heq])
  cases move with
  | createSession id userID accessHash refreshHash accessExpires refreshExpires =>
    simp only [step] at h
    split at h
    · cases h
      exact hsame s.db rfl
    · rename_i db hinsert
      cases h
      have hf := insertSession_follows hs.unique hinsert
      unfold insertSession at hinsert
      split_ifs at hinsert with habsent
      cases hinsert
      refine ⟨granted_sound [] hs hfresh rfl hf (mem_append_right _ (mem_singleton_self _))
        (fun row hrow => ?_) nofun hs.once ?_,
        fun row hrow => ⟨row, mem_append_left _ hrow, rfl, le_rfl, fun hr => hr⟩⟩
      · rcases mem_append.mp hrow with hrow | hnew
        · exact .inr ⟨hrow, fun hid => habsent (hid ▸ mem_map_of_mem hrow)⟩
        · exact .inl (mem_singleton.mp hnew)
      · -- Nothing was retired for an id that no session had.
        rw [nil_append, retired, filter_eq_nil_iff.mpr]
        · rfl
        · exact fun p hp hid => habsent (of_decide_eq_true hid ▸ (hs.known p hp).2)
  | rotateSession refreshHash nextAccess nextRefresh accessExpires refreshExpires =>
    simp only [step] at h
    split at h
    · rename_i db session hrotate
      cases h
      have hf : s.db.Follows db := by
        convert rotateSession_follows hs.unique
        rw [hrotate]
      obtain ⟨current, hmem, rfl, -, rfl, rfl⟩ := rotateSession_rotated hrotate
      have hcurrent := hs.rows current hmem
      refine ⟨granted_sound [current.refreshHash] hs hfresh rfl hf
        (mem_map.mpr ⟨current, hmem, by simp⟩) (fun row hrow => ?_)
          (by simpa using hcurrent.refresh) (nodup_cons.mpr ⟨?_, hs.once⟩)
        (by simp [hcurrent.previous, take_take]), fun row hrow =>
          ⟨_, mem_map_of_mem hrow, ?_⟩⟩
      · obtain ⟨old, hold, rfl⟩ := mem_map.mp hrow
        split_ifs with hid
        · exact .inl rfl
        · exact .inr ⟨hold, hid⟩
      · -- The digest presented was in use, so no rotation retired it before.
        intro hspent
        obtain ⟨p, hp, hsame⟩ := mem_map.mp hspent
        exact hcurrent.unspent p hp hsame
      split_ifs with hid
      · obtain rfl := eq_of_sessionID hs.unique hrow hmem hid
        exact ⟨rfl, min_le_right _ _, fun hr => hr⟩
      · exact ⟨rfl, le_rfl, fun hr => hr⟩
    · rename_i db result hother hrotate
      cases h
      unfold rotateSession at hrotate
      split at hrotate
      · cases hrotate
        exact absurd rfl (hother _)
      · split at hrotate
        · cases hrotate
          exact revoked_sound _ hs rfl
        · cases hrotate
          exact hsame s.db rfl
  | revokeSession id userID =>
    cases h
    exact revoked_sound _ hs rfl
  | revokeSessionByRefreshToken refreshHash =>
    cases h
    exact revoked_sound _ hs rfl
  | scimSetActive organizationID userID active =>
    cases h
    cases hdone : s.db.scimSetActive organizationID userID active with
    | none => exact hsame s.db rfl
    | some db =>
      obtain ⟨-, users, -, rfl⟩ := scimSetActive_some hdone
      exact revoked_sound _ hs rfl
  | advance duration =>
    cases h
    exact hsame _ rfl

theorem exec_sound {moves : List Move} (hs : s.Sound) (hfresh : Meets step Fresh s moves)
    (h : exec step s moves = some t) : t.Sound ∧ s.Precedes t := by
  refine exec_invariant (fun u => u.Sound ∧ s.Precedes u) (fun u move v hu hmove hstep => ?_)
    ⟨hs, fun row hrow => ⟨row, hrow, rfl, le_rfl, fun hr => hr⟩⟩ hfresh h
  obtain ⟨hv, hlater⟩ := step_sound hu.1 hmove hstep
  refine ⟨hv, fun row hrow => ?_⟩
  obtain ⟨mid, hmid, hid, hexpires, hrevoked⟩ := hu.2 row hrow
  obtain ⟨late, hlate, hid', hexpires', hrevoked'⟩ := hlater mid hmid
  exact ⟨late, hlate, hid'.trans hid, hexpires'.trans hexpires, fun hr => hrevoked' (hrevoked hr)⟩

def Catches (s : Ledger text) (row : SessionRow) (digest : String) : Prop :=
  ∀ nextAccess nextRefresh access refresh,
    let (db, result) := s.db.rotateSession digest nextAccess nextRefresh access refresh
    result = .reused ∧ { row with revoked := true } ∈ db.sessions

def Refuses (s : Ledger text) (digest : String) : Prop :=
  s.db.authenticateAccess digest = none ∧ ∀ nextAccess nextRefresh access refresh session,
    (s.db.rotateSession digest nextAccess nextRefresh access refresh).2 ≠ .rotated session

variable {digest : String}

theorem Sound.catches (hs : s.Sound) (hrow : row ∈ s.db.sessions)
    (hdigest : digest ∈ (s.retired row.id).take 5) : s.Catches row digest := by
  -- A remembered digest belongs to its row, and so to one row only.
  have hlogged : ∀ row ∈ s.db.sessions, digest ∈ row.previousRefreshHashes →
      (row.id, digest) ∈ s.rotations := by
    intro row hrow hin
    rw [(hs.rows row hrow).previous] at hin
    simpa [retired] using mem_of_mem_take hin
  have hin : digest ∈ row.previousRefreshHashes := (hs.rows row hrow).previous ▸ hdigest
  have hspent := hlogged row hrow hin
  have hcurrent : s.db.sessions.find? (fun row => row.refreshHash = digest ∧ row.revoked = false ∧
      s.db.now < row.refreshExpiresAt ∧ s.db.enabled row.userID) = none := by
    refine find?_eq_none.mpr fun row hrow hlive => ?_
    exact (hs.rows row hrow).unspent _ hspent (of_decide_eq_true hlive).1.symm
  intro nextAccess nextRefresh access refresh
  simp only [rotateSession, hcurrent]
  cases hfound : s.db.sessions.find? fun row => digest ∈ row.previousRefreshHashes with
  | none => exact absurd (decide_eq_true hin) (find?_eq_none.mp hfound row hrow)
  | some found =>
    have hmem := mem_of_find?_eq_some hfound
    have hother := hlogged found hmem (by simpa using find?_some hfound)
    have hid := (hs.known _ hspent).1.symm.trans (hs.known _ hother).1
    obtain rfl := eq_of_sessionID hs.unique hrow hmem (Option.some.inj hid)
    exact ⟨rfl, mem_map.mpr ⟨row, hrow, by simp⟩⟩

theorem Sound.refuses (hs : s.Sound) (hrow : row ∈ s.db.sessions) (hrevoked : row.revoked = true)
    (hdigest : s.issued digest = some row.id) : s.Refuses digest := by
  have hdead : ∀ other ∈ s.db.sessions, s.issued digest = some other.id → other.revoked = true := by
    intro other hother howner
    have hid := Option.some.inj (howner.symm.trans hdigest)
    rw [eq_of_sessionID hs.unique hother hrow hid, hrevoked]
  constructor
  · refine find?_eq_none.mpr fun other hother hlive => ?_
    obtain ⟨rfl, hlive, -⟩ := of_decide_eq_true hlive
    simp [hdead other hother (hs.rows other hother).access] at hlive
  · intro nextAccess nextRefresh access refresh session hrotated
    obtain ⟨current, hmem, rfl, hlive, -⟩ := rotateSession_rotated (Prod.ext rfl hrotated)
    simp [hdead current hmem (hs.rows current hmem).refresh] at hlive

end Ledger

/-- In every run with fresh digests, in a state `s` and any later state `t`: a digest is accepted
by one rotation at most, presenting one of the last five retired digests of a session revokes it,
no digest of a session revoked in `s` is accepted in `t`, and refresh expiries do not increase. -/
theorem refresh_digests_rotate_once (db : Database text) (before after : List Move)
    (s t : Ledger text) (hfresh : Meets Ledger.step Ledger.Fresh (.start db) (before ++ after))
    (hs : exec Ledger.step (.start db) before = some s) (ht : exec Ledger.step s after = some t) :
    (s.rotations.map (·.2)).Nodup ∧
    (∀ row ∈ s.db.sessions, ∀ digest ∈ (s.retired row.id).take 5, s.Catches row digest) ∧
    (∀ row ∈ s.db.sessions, row.revoked = true → ∀ digest, t.issued digest = some row.id →
      t.Refuses digest) ∧
    (∀ row ∈ s.db.sessions, ∃ later ∈ t.db.sessions, later.id = row.id ∧
      later.refreshExpiresAt ≤ row.refreshExpiresAt) := by
  obtain ⟨hbefore, hafter⟩ := hfresh.append hs
  have hstart : (Ledger.start db).Sound := by
    constructor <;> simp [Ledger.start, sessionIDs]
  have hsound := (Ledger.exec_sound hstart hbefore hs).1
  obtain ⟨hsound', hlater⟩ := Ledger.exec_sound hsound hafter ht
  refine ⟨hsound.once, fun row hrow digest => hsound.catches hrow, fun row hrow hrevoked digest
    hdigest => ?_, fun row hrow => ?_⟩
  · obtain ⟨later, hmem, hid, -, hkept⟩ := hlater row hrow
    exact hsound'.refuses hmem (hkept hrevoked) (hid ▸ hdigest)
  · obtain ⟨later, hmem, hid, hexpires, -⟩ := hlater row hrow
    exact ⟨later, hmem, hid, hexpires⟩

def replay : List Move :=
  [.createSession "session" "u" "a0" "r0" 10 20, .rotateSession "r0" "a1" "r1" 10 30,
    .rotateSession "r0" "a2" "r2" 10 30]

theorem replay_caught : ∃ s t : Ledger plainText,
    exec Ledger.step (.start Directory.sampleDatabase) replay = some s ∧
    exec Ledger.step s [.advance 1] = some t ∧ s.rotations = [("session", "r0")] ∧
    t.Refuses "r1" ∧ ∃ row ∈ s.db.sessions, s.Catches row "r0" := by
  obtain ⟨s, hs, hlog, ⟨row, hrow, hrevoked, hid, hdigest⟩, t, ht, hissued⟩ :
      ∃ s : Ledger plainText, exec Ledger.step (.start Directory.sampleDatabase) replay = some s ∧
        s.rotations = [("session", "r0")] ∧
        (∃ row ∈ s.db.sessions, row.revoked = true ∧ row.id = "session" ∧
          "r0" ∈ (s.retired row.id).take 5) ∧
        ∃ t, exec Ledger.step s [.advance 1] = some t ∧ t.issued "r1" = some "session" := by
    decide
  obtain ⟨-, hcatch, hrefuse, -⟩ := refresh_digests_rotate_once Directory.sampleDatabase replay
    [.advance 1] s t (by decide) hs ht
  exact ⟨s, t, hs, ht, hlog, hrefuse row hrow hrevoked "r1" (hid ▸ hissued),
    row, hrow, hcatch row hrow "r0" hdigest⟩

end Rotation

end Shiftgate.Accounts
