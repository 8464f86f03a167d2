import Shiftgate.Jobs.Tasks
import Shiftgate.Relay.Tickets

/-! The relay tickets of one migration and the routines of the control plane that settle it
(`migration_worker.go`, `dispatcher.go`, `migrations_routes.go`). A ticket is issued in two
statements (`relay_routes.go`). Every statement is atomic. -/

namespace Shiftgate.Relay.Settlement

open Library Jobs

structure Config where
  organizationID : String
  migrationID : String
  sourceMachineID : String
  destinationMachineID : String
  relayConfigured : Bool
  strongKey : Bool
  relayEndpoint : String
  sign : TicketClaims → String
  tokenHash : String → String

def newClaims (org source destination migration nonce : String) (ttl now : Nat) :
    Option TicketClaims :=
  if org = "" ∨ source = "" ∨ destination = "" ∨ migration = "" ∨ source = destination then none
  else if ttl = 0 ∨ 600 < ttl then none
  else some ⟨org, source, destination, migration, nonce, now + ttl, "", ""⟩

def prepareTicket (c : Config) (row : JobRow) (source destination : String) (ttl : Nat)
    (nonce : String) (now : Nat) : Option TicketClaims := do
  let ttl := if ttl = 0 then 120 else ttl
  if c.relayConfigured = false ∨ ttl < 10 ∨ 600 < ttl then none
  else if c.sourceMachineID ≠ source ∨ c.destinationMachineID ≠ destination ∨
      row.status.active = false then none
  else
    let claims ← newClaims c.organizationID source destination c.migrationID nonce ttl now
    let claims := { claims with audience := c.relayEndpoint }
    if c.strongKey ∧ validClaims now claims then some claims else none

/-- `issue` and `insert` say whether they set up a relayed migration; `finish` is
`finishUnmanagedMigration`, `write` a bare `UpdateMigrationStatus`. -/
inductive Point where
  | issue (source destination : String) (ttl : Nat) (setup : Bool)
  | insert (claims : TicketClaims) (setup : Bool)
  | arm
  | revokeFirst
  | poll
  | polled (job : JobRow)
  | pollCancel
  | dispatch
  | cancel
  | cancelCall
  | request
  | write (settlement : Settlement)
  | finish (settlement : Settlement)
  | reconcile
  | returned
  deriving DecidableEq

inductive Task where
  | worker (w : Worker)
  | handler (point : Point)

def Task.hasReturned : Task → Bool
  | .worker w => w.point = .done
  | .handler point => point = .returned

def rejected (setup : Bool) : Point := if setup then .revokeFirst else .returned

def Point.answered (point : Point) (reply : Reply) (now : Nat) : Option Point :=
  match point with
  | .polled job =>
    match reply with
    | .migration m =>
      if job.cancelRequested then some .pollCancel
      else if (migrationJobStatus m.stage).active then some (.write (.observed m))
      else some (.finish (.observed m))
    | .absent =>
      if job.agentMigrationID = "" ∧ now - job.createdAt > unmanagedJobAbandonAge then
        some (.finish (.blind .failed "the agent never started this migration"))
      else some .returned
    | .accepted | .refused | .failed => some .returned
  | .pollCancel =>
    some (if reply = .accepted then .finish (.blind .cancelled "migration cancelled by operator")
      else .returned)
  | .dispatch =>
    match reply with
    | .migration m => some (.write (.observed m))
    | .refused => some (.finish (.blind .failed "agent refused the migration"))
    | .absent | .accepted | .failed => some .returned
  | .cancelCall =>
    some (if reply = .accepted then .write (.blind .cancelled "") else .returned)
  | .issue .. | .insert .. | .arm | .revokeFirst | .poll | .cancel | .request | .write _ |
    .finish _ | .reconcile | .returned => none

/-- `settler` is the task that wrote the row's terminal status; no step reads it. -/
structure System where
  now : Nat
  row : JobRow
  tickets : Tickets
  tasks : List Task
  settler : Option Nat

inductive Action where
  | tick (seconds : Nat)
  | claim (owner : String)
  | issue (source destination : String) (ttl : Nat)
  | setup
  | poll
  | dispatch
  | cancel
  | advance (task : Nat) (nonce : String) (ok : Bool)
  | answer (task : Nat) (reply : Reply)
  | work (task : Nat) (write : Write) (result : Option AgentMigration) (ok : Bool)
  | claimLeg (claims : TicketClaims) (token machine relayID : String)
  | consume (nonce token relayID : String)
  | revokeExpired

namespace System

def setTask (s : System) (i : Nat) (task : Task) : System :=
  { s with tasks := s.tasks.set i task }

def goTo (s : System) (i : Nat) (point : Point) : System := s.setTask i (.handler point)

def spawn (s : System) (task : Task) : System := { s with tasks := s.tasks ++ [task] }

def written (s : System) (i : Nat) (row : JobRow) : System :=
  { s with row, settler := if row.status.active then none else some i }

def settle (s : System) (i : Nat) (settlement : Settlement) : System :=
  s.written i
    (updateMigrationStatus s.row settlement.status settlement.progressAgentID settlement.reason)

def revoke (c : Config) (s : System) (ok : Bool) : System :=
  { s with tickets := if ok then revokeRelayTicketsForMigration s.tickets c.migrationID
                      else s.tickets }

def advance (c : Config) (s : System) (i : Nat) (nonce : String) (ok : Bool) :
    Point → Option System
  | .issue source destination ttl setup =>
    match if ok then prepareTicket c s.row source destination ttl nonce s.now else none with
    | some claims => some (s.goTo i (.insert claims setup))
    | none => some (s.goTo i (rejected setup))
  | .insert claims setup =>
    match if ok then createRelayTicket s.tickets claims (c.tokenHash (c.sign claims))
        (some (c.sourceMachineID, c.destinationMachineID)) s.now else none with
    | some tickets =>
      some (({ s with tickets } : System).goTo i (if setup then .arm else .returned))
    | none => some (s.goTo i (rejected setup))
  | .arm => some (s.goTo i (if ok then .returned else .revokeFirst))
  | .revokeFirst =>
    -- `settleFailedRelayJob` expires the tickets before it writes the status.
    some ((s.revoke c ok).goTo i (.write (.blind .failed "relay setup failed")))
  | .poll =>
    some (s.goTo i (if ok = false ∨ s.row.managed ∨ s.row.status.active = false then .returned
      else .polled s.row))
  | .cancel =>
    some (s.goTo i
      (if ok = false ∨ s.row.status.active = false then .returned
      else if s.row.managed then (if s.row.cancelRequested then .returned else .request)
      else if s.row.progressAgentID = "" then .returned else .cancelCall))
  | .request =>
    let row := if ok then (requestManagedMigrationCancel s.row).getD s.row else s.row
    some (({ s with row } : System).goTo i .returned)
  | .write settlement =>
    some ((if ok then s.settle i settlement else s).goTo i .returned)
  | .finish settlement =>
    some (if ok then (s.settle i settlement).goTo i .reconcile else s.goTo i .returned)
  | .reconcile => some ((s.revoke c ok).goTo i .returned)
  | .polled _ | .pollCancel | .dispatch | .cancelCall | .returned => none

def work (s : System) (i : Nat) (w : Worker) (write : Write) (ok : Bool) : System :=
  match if ok then write.apply w s.row s.now else none with
  | some row => (s.written i row).setTask i (.worker (write.next w (some row)))
  | none => s.setTask i (.worker (write.next w none))

def step (c : Config) (s : System) : Action → Option System
  | .tick seconds => some { s with now := s.now + seconds }
  | .claim owner =>
    (claimNextManagedMigration s.row owner migrationWorkerLease s.now).map fun row =>
      ({ s with row } : System).spawn
        (.worker { claim := row.attemptCount, job := row, agentID := "", result := none,
                   point := .start })
  | .issue source destination ttl => some (s.spawn (.handler (.issue source destination ttl false)))
  | .setup =>
    if s.row.managed then none
    else some (s.spawn (.handler
      (.issue c.sourceMachineID c.destinationMachineID 120 true)))
  | .poll => some (s.spawn (.handler .poll))
  | .dispatch => if s.row.managed then none else some (s.spawn (.handler .dispatch))
  | .cancel => some (s.spawn (.handler .cancel))
  | .advance i nonce ok =>
    match s.tasks[i]? with
    | some (.handler point) => s.advance c i nonce ok point
    | some (.worker _) | none => none
  | .answer i reply =>
    match s.tasks[i]? with
    | some (.handler point) => (point.answered reply s.now).map (s.goTo i)
    | some (.worker _) | none => none
  | .work i write result ok =>
    match s.tasks[i]? with
    | some (.worker w) =>
      if w.point = .done then none else some (s.work i { w with result } write ok)
    | some (.handler _) | none => none
  | .claimLeg claims token machine relayID =>
    (claimRow s.tickets claims (c.tokenHash token) machine relayID s.now).map
      ({ s with tickets := · })
  | .consume nonce token relayID =>
    (consumeRow s.tickets nonce (c.tokenHash token) relayID s.now).map ({ s with tickets := · })
  | .revokeExpired => some { s with tickets := revokeExpiredRelayTickets s.tickets s.now }

def initial (c : Config) (now : Nat) (managed : Bool) (tickets : Tickets) : System where
  now := now
  row := { managed, status := .queued, progressAgentID := "", errorMessage := "",
           agentMigrationID := "", nextAttemptAt := now, leaseOwner := none,
           leaseExpiresAt := none, attemptCount := 0, cancelRequested := false, createdAt := now }
  tickets := fun nonce => (tickets nonce).filter (·.migrationID ≠ c.migrationID)
  tasks := []
  settler := none

end System

end Shiftgate.Relay.Settlement
