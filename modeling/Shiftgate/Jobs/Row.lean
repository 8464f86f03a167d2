import Shiftgate.Migration.Orchestrator

/-! A migration job: its row in `migration_jobs` and the statements of
`internal/database/migrations.go` that change it, each atomic. A managed row is driven by the worker
that holds its lease. -/

namespace Shiftgate.Jobs

open Migration Option

inductive JobStatus where
  | queued
  | running
  | completed
  | failed
  | cancelled
  deriving DecidableEq

def JobStatus.active : JobStatus → Bool
  | .queued | .running => true
  | .completed | .failed | .cancelled => false

def migrationJobStatus : Stage → JobStatus
  | .completed => .completed
  | .failed | .rolledBack => .failed
  | .cancelled => .cancelled
  | _ => .running

structure AgentMigration where
  id : String
  stage : Stage
  failureReason : String
  deriving DecidableEq

/-- Of the progress document the row keeps the agent's id. -/
structure JobRow where
  managed : Bool
  status : JobStatus
  progressAgentID : String
  errorMessage : String
  agentMigrationID : String
  nextAttemptAt : Nat
  leaseOwner : Option String
  leaseExpiresAt : Option Nat
  attemptCount : Nat
  cancelRequested : Bool
  createdAt : Nat
  deriving DecidableEq

def JobRow.owner (row : JobRow) : String := row.leaseOwner.getD ""

def migrationWorkerLease : Nat := 45

def migrationRetryDelay : Nat := 10

def unmanagedJobAbandonAge : Nat := 24 * 60 * 60

def claimNextManagedMigration (row : JobRow) (owner : String) (lease now : Nat) : Option JobRow :=
  if owner ≠ "" ∧ 0 < lease ∧ row.managed = true ∧ row.status.active = true ∧
      row.nextAttemptAt ≤ now ∧ (row.leaseOwner = none ∨ row.leaseExpiresAt.any (· < now)) then
    some { row with leaseOwner := some owner, leaseExpiresAt := some (now + lease),
                    attemptCount := row.attemptCount + 1, status := .running }
  else none

def updateManagedMigration (row record : JobRow) (status : JobStatus)
    (progressAgentID errorMessage agentMigrationID : String) (retryAt lease now : Nat) :
    Option JobRow :=
  if row.managed = true ∧ row.leaseOwner = some record.owner then
    some { row with
      status, progressAgentID, errorMessage,
      agentMigrationID := if agentMigrationID = "" then row.agentMigrationID else agentMigrationID
      nextAttemptAt := retryAt
      leaseOwner := if status = .running then some record.owner else none
      leaseExpiresAt := if status = .running then some (now + lease) else none }
  else none

def updateMigrationStatus (row : JobRow) (status : JobStatus)
    (progressAgentID errorMessage : String) : JobRow :=
  { row with status, progressAgentID, errorMessage }

def requestManagedMigrationCancel (row : JobRow) : Option JobRow :=
  if row.managed = true ∧ row.status.active = true then some { row with cancelRequested := true }
  else none

theorem claimNextManagedMigration_ok {row row' : JobRow} {owner : String} {lease now : Nat}
    (h : claimNextManagedMigration row owner lease now = some row') :
    owner ≠ "" ∧ row.managed = true ∧ row.status.active = true ∧
      row' = { row with leaseOwner := some owner, leaseExpiresAt := some (now + lease),
                        attemptCount := row.attemptCount + 1, status := .running } := by
  obtain ⟨⟨howner, -, hmanaged, hactive, -⟩, heq⟩ := ite_none_right_eq_some.mp h
  exact ⟨howner, hmanaged, hactive, (some.inj heq).symm⟩

structure LeasedWrite (row record : JobRow) (status : JobStatus) (row' : JobRow) : Prop where
  managed : row.managed = true
  leased : row.leaseOwner = some record.owner
  status_eq : row'.status = status
  managed_eq : row'.managed = row.managed
  attempt_eq : row'.attemptCount = row.attemptCount
  owner_eq : row'.leaseOwner = if status = .running then some record.owner else none

theorem updateManagedMigration_ok {row record row' : JobRow} {status : JobStatus}
    {progressAgentID errorMessage agentMigrationID : String} {retryAt lease now : Nat}
    (h : updateManagedMigration row record status progressAgentID errorMessage agentMigrationID
      retryAt lease now = some row') : LeasedWrite row record status row' := by
  obtain ⟨⟨hmanaged, hleased⟩, heq⟩ := ite_none_right_eq_some.mp h
  cases heq
  exact ⟨hmanaged, hleased, rfl, rfl, rfl, rfl⟩

theorem requestManagedMigrationCancel_ok {row row' : JobRow}
    (h : requestManagedMigrationCancel row = some row') :
    row' = { row with cancelRequested := true } := by
  obtain ⟨-, heq⟩ := ite_none_right_eq_some.mp h
  exact (some.inj heq).symm

end Shiftgate.Jobs
