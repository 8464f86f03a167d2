import Mathlib.Tactic

/-! Incoming transfer sessions (`internal/transfer/session.go`): the record of one transfer id and
what each call makes of it. Calls on one id are serialized. Times are seconds. -/

namespace Shiftgate.Transfer

inductive SessionState where
  | reserved
  | keyReady
  | manifestReady
  | verified
  | held
  | restored
  | committed
  | rolledBack
  | failed
  deriving DecidableEq

namespace SessionState

def text : SessionState → String
  | reserved => "RESERVED"
  | keyReady => "KEY_READY"
  | manifestReady => "MANIFEST_READY"
  | verified => "VERIFIED"
  | held => "HELD"
  | restored => "RESTORED"
  | committed => "COMMITTED"
  | rolledBack => "ROLLED_BACK"
  | failed => "FAILED"

def terminal : SessionState → Bool
  | committed | rolledBack | failed => true
  | _ => false

end SessionState

def purposeReplication : String := "replication"

def validPurpose (purpose : String) : Bool := purpose = "" || purpose = purposeReplication

/-- A restore is named by its number; `none` is the empty id. -/
structure Session where
  sourceMachineID : String
  workloadID : String
  checkpointID : String := ""
  keyVersion : UInt32 := 0
  state : SessionState := .reserved
  estimatedBytes : Int64
  receivedBytes : Int64 := 0
  attemptedBytes : Int64 := 0
  restoreID : Option Nat := none
  purpose : String := ""
  sourceAgentURL : String := ""
  keepLast : Int := 0
  fencingProvider : String := ""
  expiresAt : Nat
  failureReason : String := ""
  deriving DecidableEq

def defaultEstimatedBytes : Int64 := (1 : Int64) <<< (30 : Int64)

def reservedBytes (estimated : Int64) : Int64 :=
  if estimated ≤ 0 then defaultEstimatedBytes else estimated

def quotaLimit (estimated : Int64) : Int64 := reservedBytes estimated + reservedBytes estimated / 20

def attemptLimit (estimated : Int64) : Int64 :=
  3 * reservedBytes estimated + (96 : Int64) <<< (20 : Int64)

def sessionExpired (session : Session) (now : Nat) : Bool :=
  session.expiresAt < now && session.state ≠ .committed && session.state ≠ .rolledBack

def requireState (session : Session) (allowed : List SessionState) : Except String Unit :=
  if session.state ∈ allowed then .ok ()
  else .error ("transfer is in " ++ session.state.text ++ " state")

def hour : Nat := 3600

structure Reservation where
  sourceMachineID : String
  workloadID : String
  estimatedBytes : Int64
  expiresAt : Option Nat
  purpose : String
  deriving DecidableEq

def reserve (stored : Option Session) (now : Nat) (r : Reservation) :
    Except String (Session × Option Session) :=
  if r.sourceMachineID = "" ∨ r.workloadID = "" then
    .error "session id, source machine, and workload are required"
  else if validPurpose r.purpose = false then
    .error ("unknown transfer purpose " ++ r.purpose)
  else
    match stored with
    | some existing =>
      if existing.sourceMachineID ≠ r.sourceMachineID ∨ existing.workloadID ≠ r.workloadID then
        .error "transfer id is already bound to another source or workload"
      else if existing.purpose ≠ r.purpose then
        .error "transfer id is already bound to another purpose"
      -- a dead reservation is not reusable
      else if sessionExpired existing now ∨ existing.state.terminal then
        .error "transfer id is expired or already used"
      else .ok (existing, stored)
    | none =>
      let expiresAt :=
        match r.expiresAt with
        | none => now + 2 * hour
        | some t => if t > now + 24 * hour then now + 2 * hour else t
      let session : Session :=
        { sourceMachineID := r.sourceMachineID, workloadID := r.workloadID,
          estimatedBytes := reservedBytes r.estimatedBytes, purpose := r.purpose, expiresAt }
      .ok (session, some session)

inductive AccessError where
  | notFound
  | otherSource
  | expired

def getForCleanup (stored : Option Session) (source : String) : Except AccessError Session :=
  match stored with
  | none => .error .notFound
  | some session =>
    if session.sourceMachineID ≠ source then .error .otherSource else .ok session

def getSession (stored : Option Session) (source : String) (now : Nat) :
    Except AccessError Session := do
  let session ← getForCleanup stored source
  if sessionExpired session now then throw .expired else return session

inductive UpdateError (ε : Type) where
  | access (err : AccessError)
  | refused (err : ε)

variable {ε : Type}

def updateCleanup (stored : Option Session) (source : String)
    (change : Session → Except ε Session) : Except (UpdateError ε) Session :=
  match getForCleanup stored source with
  | .error err => .error (.access err)
  | .ok session =>
    match change session with
    | .error err => .error (.refused err)
    | .ok session' => .ok session'

def updateSession (stored : Option Session) (source : String) (now : Nat)
    (change : Session → Except ε Session) : Except (UpdateError ε) Session :=
  match getSession stored source now with
  | .error err => .error (.access err)
  | .ok session =>
    match change session with
    | .error err => .error (.refused err)
    | .ok session' => .ok session'

def expiredReason : String := "incoming transfer reservation expired"

def reap (stored : Option Session) (now : Nat) : Option Session :=
  stored.map fun session =>
    if sessionExpired session now then
      { session with state := .failed, failureReason := expiredReason }
    else session

section Access

variable {stored : Option Session} {source : String} {now : Nat} {session session' : Session}

theorem getForCleanup_ok (h : getForCleanup stored source = .ok session) :
    stored = some session ∧ session.sourceMachineID = source := by
  cases stored with
  | none => cases h
  | some s =>
    simp only [getForCleanup] at h
    split at h
    · cases h
    · rename_i hsource
      cases h
      exact ⟨rfl, not_not.mp hsource⟩

theorem getSession_ok (h : getSession stored source now = .ok session) :
    stored = some session ∧ session.sourceMachineID = source ∧
      sessionExpired session now = false := by
  unfold getSession at h
  cases hg : getForCleanup stored source with
  | error err => simp [hg, bind, Except.bind] at h
  | ok s =>
    obtain ⟨hs, hsource⟩ := getForCleanup_ok hg
    simp only [hg, bind, Except.bind] at h
    split at h
    · cases h
    · rename_i hlive
      cases h
      exact ⟨hs, hsource, by simpa using hlive⟩

variable {change : Session → Except ε Session}

theorem updateCleanup_ok (h : updateCleanup stored source change = .ok session') :
    ∃ session, getForCleanup stored source = .ok session ∧ change session = .ok session' := by
  unfold updateCleanup at h
  split at h
  · cases h
  · rename_i session hg
    split at h
    · cases h
    · rename_i changed hc
      cases h
      exact ⟨session, hg, hc⟩

theorem updateSession_ok (h : updateSession stored source now change = .ok session') :
    ∃ session, getSession stored source now = .ok session ∧ change session = .ok session' := by
  unfold updateSession at h
  split at h
  · cases h
  · rename_i session hg
    split at h
    · cases h
    · rename_i changed hc
      cases h
      exact ⟨session, hg, hc⟩

theorem requireState_ok {allowed : List SessionState}
    (h : requireState session allowed = .ok ()) : session.state ∈ allowed := by
  unfold requireState at h
  split at h
  · assumption
  · cases h

end Access

end Shiftgate.Transfer
