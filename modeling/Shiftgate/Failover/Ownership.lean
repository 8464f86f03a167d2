import Shiftgate.Library.Requests
import Shiftgate.Library.Runs

/-! Automatic failover of one workload: the ownership row of `internal/database/ownership.go` and
the standby supervisors of `internal/agent/standby.go`. Requests may be served after the supervisor
gave up waiting. -/

namespace Shiftgate.Failover

open Library

inductive OwnershipState where
  | unowned
  | owned
  | fenced
  deriving DecidableEq

structure OwnershipRecord where
  organizationID : String
  epoch : Nat
  ownerMachineID : String
  state : OwnershipState
  tokenHash : String
  leaseExpiresAt : Option Nat

inductive OwnershipError where
  | invalid (message : String)
  | notFound
  | conflict

def OwnershipRecord.excludes (row : OwnershipRecord) (machineID : String) (now : Nat) : Bool :=
  row.state = .owned && row.leaseExpiresAt.any (now < ·) && row.ownerMachineID ≠ machineID

def acquireOwnership (hash : String → String) (workloadOrganization : Option String)
    (row : Option OwnershipRecord) (organizationID workloadID machineID token : String)
    (lease now : Nat) : Except OwnershipError OwnershipRecord :=
  if organizationID = "" ∨ workloadID = "" ∨ machineID = "" ∨ token = "" ∨ lease = 0 then
    .error (.invalid "ownership fields and lease are required")
  else match workloadOrganization with
    | none => .error .notFound
    | some organization =>
      if organization ≠ organizationID then .error .conflict
      else
        let current := row.getD
          { organizationID, epoch := 0, ownerMachineID := "", state := .unowned, tokenHash := "",
            leaseExpiresAt := none }
        if current.organizationID ≠ "" ∧ current.organizationID ≠ organizationID then
          .error .conflict
        else if current.excludes machineID now then .error .conflict
        else .ok { organizationID, epoch := current.epoch + 1, ownerMachineID := machineID,
                   state := .owned, tokenHash := hash token, leaseExpiresAt := some (now + lease) }

def markOwnershipFenced (hash : String → String) (row : Option OwnershipRecord)
    (organizationID machineID token : String) (epoch : Nat) :
    Except OwnershipError OwnershipRecord :=
  match row with
  | none => .error .conflict
  | some row =>
    if row.organizationID = organizationID ∧ row.ownerMachineID = machineID ∧ row.epoch = epoch ∧
        row.tokenHash = hash token then
      .ok { row with state := .fenced, leaseExpiresAt := none }
    else .error .conflict

structure Grant where
  epoch : Nat
  token : String
  deriving DecidableEq

inductive Call where
  | acquire (machineID : String)
  | fence (machineID : String) (grant : Grant)

inductive Reply where
  | acquired (grant : Grant)
  | fenced
  | refused

/-- Where a supervisor is in `considerFailover`; a number is the request it waits for. -/
inductive Phase where
  | idle
  | acquiring (request : Nat)
  | fencing (grant : Grant)
  | marking (grant : Grant) (request : Nat)
  | marked (grant : Grant)
  | restoring (grant : Grant)
  deriving DecidableEq

structure Standby where
  phase : Phase
  failedOver : Bool
  restored : Bool

structure Config where
  hash : String → String
  organizationID : String
  workloadID : String

structure System where
  now : Nat
  row : Option OwnershipRecord
  requests : Requests Call Reply
  standby : String → Standby

def System.initial : System where
  now := 0
  row := none
  requests := []
  standby := fun _ => { phase := .idle, failedOver := false, restored := false }

def leaseSeconds : Nat := 120

/-- `beginFailover` or the checks after it refuse, the duty has already failed over, the workload
already runs here, or the restore begins. -/
inductive Claim where
  | refused
  | terminal
  | runsHere
  | restores

inductive Action where
  | tick (seconds : Nat)
  | consider (machineID : String)
  | serve (request : Nat) (token : String)
  | refuse (request : Nat)
  | answer (machineID : String)
  | giveUp (machineID : String)
  | fence (machineID : String) (confirmed : Bool)
  | begin (machineID : String) (claim : Claim)
  | finish (machineID : String) (ok persisted : Bool)
  | crash (machineID : String)

namespace System

def setStandby (s : System) (m : String) (standby : Standby) : System :=
  { s with standby := fun other => if other = m then standby else s.standby other }

def setPhase (s : System) (m : String) (phase : Phase) : System :=
  s.setStandby m { s.standby m with phase }

def ask (s : System) (m : String) (call : Call) (wait : Nat → Phase) : System :=
  ({ s with requests := s.requests.send call } : System).setPhase m (wait s.requests.length)

def setReply (s : System) (k : Nat) (reply : Reply) : System :=
  { s with requests := s.requests.answer k reply }

def serve (c : Config) (s : System) (k : Nat) (token : String) : Call → System
  | .acquire m =>
    match acquireOwnership c.hash (some c.organizationID) s.row c.organizationID c.workloadID m
        token leaseSeconds s.now with
    | .ok row => ({ s with row := some row } : System).setReply k (.acquired ⟨row.epoch, token⟩)
    | .error _ => s.setReply k .refused
  | .fence m grant =>
    match markOwnershipFenced c.hash s.row c.organizationID m grant.token grant.epoch with
    | .ok row => ({ s with row := some row } : System).setReply k .fenced
    | .error _ => s.setReply k .refused

def answered (s : System) (m : String) : Phase → Option System
  | .acquiring k =>
    match s.requests.reply k with
    | some (.acquired grant) =>
      if grant.epoch = 0 ∨ grant.token = "" then some (s.setPhase m .idle)
      else some (s.setPhase m (.fencing grant))
    | some _ => some (s.setPhase m .idle)
    | none => none
  | .marking grant k =>
    match s.requests.reply k with
    | some .fenced => some (s.setPhase m (.marked grant))
    | some _ => some (s.setPhase m .idle)
    | none => none
  | _ => none

def step (c : Config) (s : System) : Action → Option System
  | .tick seconds => some { s with now := s.now + seconds }
  | .consider m =>
    if m ≠ "" ∧ (s.standby m).phase = .idle ∧ (s.standby m).failedOver = false then
      some (s.ask m (.acquire m) .acquiring)
    else none
  | .serve k token =>
    (s.requests.pending k).map (s.serve c k token)
  | .refuse k =>
    (s.requests.pending k).map fun _ => s.setReply k .refused
  | .answer m => s.answered m (s.standby m).phase
  | .giveUp m =>
    match (s.standby m).phase with
    | .acquiring _ | .marking _ _ => some (s.setPhase m .idle)
    | _ => none
  | .fence m confirmed =>
    match (s.standby m).phase with
    | .fencing grant =>
      if confirmed then some (s.ask m (.fence m grant) (.marking grant))
      else some (s.setPhase m .idle)
    | _ => none
  | .begin m claim =>
    match (s.standby m).phase with
    | .marked grant =>
      match claim with
      | .refused | .terminal => some (s.setPhase m .idle)
      | .runsHere => some (s.setStandby m { s.standby m with phase := .idle, failedOver := true })
      | .restores => some (s.setPhase m (.restoring grant))
    | _ => none
  | .finish m ok persisted =>
    match (s.standby m).phase with
    | .restoring _ =>
      some (if ok then s.setStandby m { phase := .idle, failedOver := persisted, restored := true }
        else s.setPhase m .idle)
    | _ => none
  | .crash m => some (s.setPhase m .idle)

def grant (s : System) (m : String) : Option Grant :=
  match (s.standby m).phase with
  | .idle => none
  | .acquiring k =>
    match s.requests.reply k with
    | some (.acquired grant) => some grant
    | _ => none
  | .fencing grant | .marking grant _ | .marked grant | .restoring grant => some grant

def Current (c : Config) (s : System) (m : String) (grant : Grant) : Prop :=
  ∃ row, s.row = some row ∧ row.ownerMachineID = m ∧ row.epoch = grant.epoch ∧
    row.tokenHash = c.hash grant.token

def epoch (s : System) : Nat := (s.row.map (·.epoch)).getD 0

end System

end Shiftgate.Failover
