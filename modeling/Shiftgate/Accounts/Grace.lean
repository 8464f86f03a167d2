import Shiftgate.Accounts.Erasure

/-! The sweep that erases accounts some time after their deactivation
(`AnonymizeDeactivatedUsers` of `internal/database/erasure.go`). It reads the ids of all accounts
whose grace has passed and then erases them one by one, each in a transaction of its own. -/

namespace Shiftgate.Accounts.Grace

open Library Erasure List Option

variable {text : Text}

structure Sweep where
  olderThan : Int
  pending : List String
  deriving DecidableEq

/-- `since` is the time from which on an account has been inactive without a break; no statement
reads it. -/
structure System (text : Text) where
  db : Database text
  sweeps : List Sweep
  since : String → Option Nat

inductive Action where
  | call (op : Operation)
  | sweep (olderThan : Int)
  | next (k : Nat)
  | fail (k : Nat)

def candidates (db : Database text) (olderThan : Int) : List String :=
  (db.users.rows.filter fun row =>
    row.disabledAt.any (fun disabledAt : Nat => (disabledAt : Int) < db.now - olderThan) &&
      !hasErasedDomain row.email).map (·.id)

def System.observe (s : System text) (db : Database text) : System text :=
  { s with
    db,
    since := fun userID =>
      if (db.users.disabledAt userID).isNone then none
      else if (s.db.users.disabledAt userID).isNone then some s.db.now
      else s.since userID }

def System.step (c : Config) (s : System text) : Action → Option (System text)
  | .call op => some (s.observe (apply c s.db op))
  | .sweep olderThan =>
    -- A negative grace is refused.
    if olderThan < 0 then none
    else some { s with sweeps := s.sweeps ++ [⟨olderThan, candidates s.db olderThan⟩] }
  | .next k => do
    let sweep ← s.sweeps[k]?
    match sweep.pending with
    | [] => none
    | userID :: rest =>
      match s.db.eraseUser userID with
      | .ok (db, _) =>
        some { s.observe db with sweeps := s.sweeps.set k { sweep with pending := rest } }
      | .error _ => some { s with sweeps := s.sweeps.set k { sweep with pending := [] } }
  | .fail k => do
    let sweep ← s.sweeps[k]?
    return { s with sweeps := s.sweeps.set k { sweep with pending := [] } }

def initial (db : Database text) : System text :=
  ⟨db, [], fun userID => (db.users.disabledAt userID).map (min db.now)⟩

/-- No directory makes an account active that a sweep is about to erase. -/
def Undisturbed (s : System text) : Action → Prop
  | .call op => ∀ sweep ∈ s.sweeps, ∀ userID ∈ sweep.pending, op.revives userID = false
  | .sweep _ | .next _ | .fail _ => True

instance (s : System text) : ∀ a, Decidable (Undisturbed s a)
  | .call op => inferInstanceAs (Decidable (∀ sweep ∈ s.sweeps, ∀ userID ∈ sweep.pending,
      op.revives userID = false))
  | .sweep _ | .next _ | .fail _ => isTrue trivial

def System.Past (s : System text) (userID : String) (olderThan : Int) : Prop :=
  (s.db.users.disabledAt userID).isSome ∧
    ∃ since, s.since userID = some since ∧ (since : Int) + olderThan < s.db.now

/-- An inactive account has been so since before its recorded time, and what the sweeps are about
to erase is past its grace. -/
structure System.Sound (s : System text) : Prop where
  recorded : ∀ userID disabledAt, s.db.users.disabledAt userID = some disabledAt →
    ∃ since, s.since userID = some since ∧ since ≤ disabledAt ∧ since ≤ s.db.now
  pending : ∀ sweep ∈ s.sweeps, ∀ userID ∈ sweep.pending, s.Past userID sweep.olderThan

variable {c : Config} {s t : System text} {db db' : Database text} {op : Operation}

variable {userID : String} {olderThan : Int}

theorem recorded_observe (hs : s.Sound) (he : Effect s.db op db') {disabledAt : Nat}
    (h : db'.users.disabledAt userID = some disabledAt) :
    ∃ since, (s.observe db').since userID = some since ∧ since ≤ disabledAt ∧ since ≤ db'.now := by
  simp only [System.observe, h, isNone_some, Bool.false_eq_true, if_false]
  cases hbefore : s.db.users.disabledAt userID with
  | none =>
    refine ⟨s.db.now, rfl, ?_, he.now⟩
    rcases he.disabledAt userID with hsame | hset | ⟨-, hnone⟩
    · rw [h, hbefore] at hsame
      cases hsame
    · rw [h] at hset
      cases hset
      exact le_rfl
    · rw [h] at hnone
      cases hnone
  | some before =>
    obtain ⟨since, hsince, hle, hpast⟩ := hs.recorded userID before hbefore
    refine ⟨since, by simpa using hsince, ?_, hpast.trans he.now⟩
    rcases he.disabledAt userID with hsame | hset | ⟨-, hnone⟩
    · rw [h, hbefore] at hsame
      cases hsame
      exact hle
    · rw [h] at hset
      cases hset
      exact hpast
    · rw [h] at hnone
      cases hnone

theorem System.Past.observe (hp : s.Past userID olderThan) (he : Effect s.db op db')
    (hrest : op.revives userID = false) : (s.observe db').Past userID olderThan := by
  obtain ⟨hoff, since, hsince, hpast⟩ := hp
  have hstill : (db'.users.disabledAt userID).isSome := by
    rcases he.disabledAt userID with hsame | hset | ⟨hrevives, -⟩
    · rwa [hsame]
    · rw [hset]
      rfl
    · rw [hrest] at hrevives
      cases hrevives
  refine ⟨hstill, since, ?_, ?_⟩
  · obtain ⟨before, hbefore⟩ := isSome_iff_exists.mp hoff
    obtain ⟨after, hafter⟩ := isSome_iff_exists.mp hstill
    simp [System.observe, hbefore, hafter, hsince]
  · have hnow := he.now
    simp only [System.observe]
    omega

theorem candidates_past (hs : s.Sound) (h : userID ∈ candidates s.db olderThan) :
    s.Past userID olderThan := by
  obtain ⟨row, hrow, rfl⟩ := List.mem_map.mp h
  obtain ⟨hmem, hold⟩ := mem_filter.mp hrow
  rw [Bool.and_eq_true, Option.any_eq_true] at hold
  obtain ⟨⟨disabledAt, hdisabled, hlt⟩, -⟩ := hold
  have hread : s.db.users.disabledAt row.id = some disabledAt := by
    rw [Users.disabledAt, Users.byID_of_mem hmem]
    exact hdisabled
  obtain ⟨since, hsince, hle, -⟩ := hs.recorded row.id disabledAt hread
  have hlt := of_decide_eq_true hlt
  exact ⟨by simp [hread], since, hsince, by omega⟩

theorem System.Sound.observe {sweeps : List Sweep} (hs : s.Sound) (he : Effect s.db op db')
    (hsweeps : ∀ sweep ∈ sweeps, ∀ userID ∈ sweep.pending,
      s.Past userID sweep.olderThan ∧ op.revives userID = false) :
    System.Sound { s.observe db' with sweeps } where
  recorded _ _ h := recorded_observe hs he h
  pending sweep hsweep userID hid :=
    (hsweeps sweep hsweep userID hid).1.observe he (hsweeps sweep hsweep userID hid).2

theorem System.Sound.stop {k : Nat} {sweep : Sweep} (hs : s.Sound) :
    System.Sound { s with sweeps := s.sweeps.set k { sweep with pending := [] } } where
  recorded := hs.recorded
  pending other hother userID hid := by
    rcases mem_or_eq_of_mem_set hother with hold | rfl
    · exact hs.pending other hold userID hid
    · cases hid

theorem step_sound {a : Action} (hs : s.Sound) (hcond : Undisturbed s a)
    (hstep : s.step c a = some t) : t.Sound := by
  cases a with
  | call op =>
    cases hstep
    exact hs.observe (apply_effect c s.db op) fun sweep hsweep userID hid =>
      ⟨hs.pending sweep hsweep userID hid, hcond sweep hsweep userID hid⟩
  | sweep olderThan =>
    simp only [System.step] at hstep
    split_ifs at hstep
    cases hstep
    refine ⟨hs.recorded, fun sweep hsweep userID hid => ?_⟩
    rcases mem_append.mp hsweep with hold | hnew
    · exact hs.pending sweep hold userID hid
    · rw [mem_singleton] at hnew
      subst hnew
      have hpast := candidates_past hs hid
      exact hpast
  | next k =>
    simp only [System.step, bind_eq_bind, bind_eq_some_iff] at hstep
    obtain ⟨sweep, hk, hstep⟩ := hstep
    split at hstep
    · cases hstep
    · rename_i userID rest hpending
      split at hstep
      · rename_i db report herase
        cases hstep
        -- An erasure makes nobody active.
        have he : Effect s.db (.erase userID) db := erase_effect herase
        refine hs.observe he fun other hother id hid => ?_
        refine ⟨?_, rfl⟩
        rcases mem_or_eq_of_mem_set hother with hold | rfl
        · exact hs.pending other hold id hid
        · exact hs.pending sweep (mem_of_getElem? hk) id
            (hpending ▸ mem_cons_of_mem userID hid)
      · cases hstep
        exact hs.stop
  | fail k =>
    simp only [System.step, bind_eq_bind, bind_eq_some_iff] at hstep
    obtain ⟨sweep, hk, hstep⟩ := hstep
    cases hstep
    exact hs.stop

theorem initial_sound (db : Database text) : (initial db).Sound where
  recorded userID disabledAt h := by
    refine ⟨min db.now disabledAt, ?_, min_le_right _ _, min_le_left _ _⟩
    have h : db.users.disabledAt userID = some disabledAt := h
    simp [initial, h]
  pending sweep hsweep := absurd hsweep not_mem_nil

/-- In a run in which no directory makes an account active that a sweep is about to erase, an
account that is erased has been inactive without a break for at least the grace. -/
theorem swept_accounts_past_grace {run : List Action} {k : Nat} {sweep : Sweep} {userID : String}
    {rest : List String}
    (hmeets : Meets (System.step c) Undisturbed (initial db) run)
    (hrun : exec (System.step c) (initial db) run = some s) (hk : s.sweeps[k]? = some sweep)
    (hnext : sweep.pending = userID :: rest) :
    s.db.isDisabled userID = true ∧
      ∃ since, s.since userID = some since ∧ (since : Int) + sweep.olderThan ≤ s.db.now := by
  have hs : s.Sound :=
    exec_invariant System.Sound (fun _ _ _ hs hcond hstep => step_sound hs hcond hstep)
      (initial_sound db) hmeets hrun
  obtain ⟨hoff, since, hsince, hpast⟩ :=
    hs.pending sweep (mem_of_getElem? hk) userID (hnext ▸ mem_cons_self)
  obtain ⟨disabledAt, hdisabled⟩ := isSome_iff_exists.mp hoff
  obtain ⟨row, hrow, hdis⟩ := Users.disabledAt_some hdisabled
  exact ⟨by simp [Database.isDisabled, hrow, hdis], since, hsince, hpast.le⟩

def deactivates (active : Bool) : Action := .call (.scimSetActive "organization" "u" active)

def chosen : List Action := [deactivates false, .call (.tick 11), .sweep 10]

theorem chosen_past_grace : ∃ s : System plainText, ∃ sweep ∈ s.sweeps[0]?,
    exec (System.step Admin.sampleConfig) (initial Directory.sampleDatabase) chosen = some s ∧
    sweep = ⟨10, ["u"]⟩ ∧ s.db.isDisabled "u" = true ∧
      ∃ since, s.since "u" = some since ∧ (since : Int) + sweep.olderThan ≤ s.db.now := by
  obtain ⟨s, hs, hk⟩ : ∃ s : System plainText, exec (System.step Admin.sampleConfig)
      (initial Directory.sampleDatabase) chosen = some s ∧ s.sweeps[0]? = some ⟨10, ["u"]⟩ := by
    decide
  exact ⟨s, _, hk, hs, rfl, swept_accounts_past_grace (by decide) hs hk rfl⟩

/-- The directory makes the account active before the sweep erases it. -/
theorem active_account_erased : ∃ s t : System plainText, ∃ sweep ∈ s.sweeps[0]?,
    exec (System.step Admin.sampleConfig) (initial Directory.sampleDatabase)
      (chosen ++ [deactivates true]) = some s ∧
    s.step Admin.sampleConfig (.next 0) = some t ∧ sweep.pending = ["u"] ∧
    s.db.isDisabled "u" = false ∧
    (t.db.users.byID "u").map (·.email) = some "erased-u@erased.invalid" := by
  simp only [and_left_comm (b := exec _ _ _ = _), exists_and_left]
  simp only [and_left_comm (b := System.step _ _ _ = _), exists_and_left]
  decide

end Shiftgate.Accounts.Grace
