import Shiftgate.Jobs.Row
import Shiftgate.Library.Requests
import Shiftgate.Library.Runs

/-! The routines of the control plane that work on a migration job (`migration_worker.go`,
`dispatcher.go`). A task stops between any two statements, and between a call to the agent and its
answer. -/

namespace Shiftgate.Jobs

open Library Migration

inductive Call where
  | create
  | list
  | get (id : String)
  | cancel (id : String)
  deriving DecidableEq

inductive Reply where
  | migration (m : AgentMigration)
  | absent
  | accepted
  | refused
  | failed
  deriving DecidableEq

/-- The agent does what is asked, refuses it (a status below 500), or fails. A new migration gets
the id. -/
inductive Outcome where
  | ok (id : String)
  | refuse
  | fail

def serveCall (agent : Option AgentMigration) (id : String) : Call → Option AgentMigration × Reply
  | .create =>
    match agent with
    | some m => (some m, .migration m)
    | none => (some ⟨id, .created, ""⟩, .migration ⟨id, .created, ""⟩)
  | .list =>
    match agent with
    | some m => (some m, .migration m)
    | none => (none, .absent)
  | .get wanted =>
    match agent with
    | some m => (some m, if m.id = wanted then .migration m else .absent)
    | none => (none, .absent)
  | .cancel wanted =>
    match agent with
    | some m => (some m, if m.id = wanted ∧ m.stage.terminal = false then .accepted else .failed)
    | none => (none, .failed)

inductive Write where
  | retry
  | assign
  | renew (message : String)
  | progress
  | finish (status : JobStatus) (seen : Option AgentMigration) (reason : String)
  deriving DecidableEq

inductive WorkerPoint where
  | start
  | creating (request : Nat)
  | writing (write : Write)
  | refresh
  | cancelling (request : Nat)
  | polling (request : Nat)
  | waiting
  | done
  deriving DecidableEq

structure Worker where
  claim : Nat
  job : JobRow
  agentID : String
  result : Option AgentMigration
  point : WorkerPoint
  deriving DecidableEq

def Write.status : Write → JobStatus
  | .retry => .queued
  | .assign | .renew _ | .progress => .running
  | .finish status _ _ => status

def resultID (result : Option AgentMigration) : String := (result.map (·.id)).getD ""

def resultReason (result : Option AgentMigration) : String :=
  (result.map (·.failureReason)).getD ""

def Write.apply (write : Write) (w : Worker) (row : JobRow) (now : Nat) : Option JobRow :=
  match write with
  | .retry =>
    updateManagedMigration row w.job .queued w.job.progressAgentID
      "migration attempt failed; retrying" w.job.agentMigrationID (now + migrationRetryDelay)
      migrationWorkerLease now
  | .assign =>
    updateManagedMigration row w.job .running (resultID w.result) "" w.agentID now
      migrationWorkerLease now
  | .renew message =>
    updateManagedMigration row w.job .running (resultID w.result) message w.agentID now
      migrationWorkerLease now
  | .progress =>
    updateManagedMigration row w.job .running (resultID w.result) (resultReason w.result) w.agentID
      now migrationWorkerLease now
  | .finish status seen reason =>
    updateManagedMigration row w.job status (resultID seen)
      (if reason = "" then resultReason seen else reason) (resultID seen) now migrationWorkerLease
      now

def Write.next (write : Write) (w : Worker) (row : Option JobRow) : Worker :=
  match write with
  | .retry | .finish _ _ _ => { w with point := .done }
  | .assign => { w with point := if row.isSome then .refresh else .done }
  | .renew _ => { w with point := .waiting }
  | .progress => { w with job := row.getD w.job, point := .waiting }

def Worker.answered (w : Worker) (reply : Reply) : Option Worker :=
  match w.point, reply with
  | .creating _, .migration m =>
    some { w with agentID := m.id, job := { w.job with agentMigrationID := m.id },
                  result := some m, point := .writing .assign }
  | .creating _, _ => some { w with point := .writing .retry }
  | .cancelling _, .accepted =>
    some { w with
      point := .writing (.finish .cancelled w.result "migration cancelled by operator") }
  | .cancelling _, _ => some { w with point := .writing .retry }
  | .polling _, .migration m =>
    some { w with
      result := some m
      point := .writing (if (migrationJobStatus m.stage).active then .progress
        else .finish (migrationJobStatus m.stage) (some m) m.failureReason) }
  | .polling _, _ =>
    some { w with result := none, point := .writing (.renew "agent migration unavailable") }
  | _, _ => none

structure Settlement where
  status : JobStatus
  seen : Option AgentMigration
  progressAgentID : String
  reason : String
  deriving DecidableEq

inductive HandlerPoint where
  | poll
  | listing (request : Nat) (job : JobRow)
  | getting (request : Nat) (job : JobRow)
  | dispatch
  | creating (request : Nat)
  | cancel
  | requesting
  | cancelling (request : Nat) (reason : String)
  | settling (settlement : Settlement)
  | done
  deriving DecidableEq

def Settlement.observed (m : AgentMigration) : Settlement :=
  ⟨migrationJobStatus m.stage, some m, m.id, m.failureReason⟩

def Settlement.blind (status : JobStatus) (reason : String) : Settlement :=
  ⟨status, none, "", reason⟩

inductive HandlerNext where
  | go (point : HandlerPoint)
  | ask (call : Call) (wait : Nat → HandlerPoint)

def pollSeen (job : JobRow) (m : AgentMigration) : HandlerNext :=
  if job.cancelRequested then
    .ask (.cancel m.id) (.cancelling · "migration cancelled by operator")
  else .go (.settling (.observed m))

def HandlerPoint.answered (point : HandlerPoint) (reply : Reply) (now : Nat) : Option HandlerNext :=
  match point, reply with
  | .listing _ job, .migration m | .getting _ job, .migration m => some (pollSeen job m)
  | .listing _ job, .absent =>
    if now - job.createdAt > unmanagedJobAbandonAge then
      some (.go (.settling (.blind .failed "the agent never started this migration")))
    else some (.go .done)
  | .listing _ _, _ | .getting _ _, _ => some (.go .done)
  | .creating _, .migration m => some (.go (.settling (.observed m)))
  | .creating _, .refused => some (.go (.settling (.blind .failed "agent refused the migration")))
  | .creating _, _ => some (.go .done)
  | .cancelling _ reason, .accepted => some (.go (.settling (.blind .cancelled reason)))
  | .cancelling _ _, _ => some (.go .done)
  | _, _ => none

def HandlerPoint.reads (point : HandlerPoint) (row : JobRow) : Option HandlerNext :=
  match point with
  | .poll =>
    if row.managed ∨ row.status.active = false then some (.go .done)
    else if row.agentMigrationID = "" then some (.ask .list (.listing · row))
    else some (.ask (.get row.agentMigrationID) (.getting · row))
  | .cancel =>
    if row.status.active = false then some (.go .done)
    else if row.managed then
      some (.go (if row.cancelRequested then .done else .requesting))
    else if row.progressAgentID = "" then some (.go .done)
    else some (.ask (.cancel row.progressAgentID) (.cancelling · ""))
  | .dispatch => some (.ask .create .creating)
  | _ => none

inductive Task where
  | worker (w : Worker)
  | handler (point : HandlerPoint)
  deriving DecidableEq

structure System where
  now : Nat
  row : JobRow
  agent : Option AgentMigration
  requests : Requests Call Reply
  tasks : List Task

/-- `ok` says that the lookups or the statement of the step succeed, `endpoint` that the source can
be dispatched to. -/
inductive Action where
  | tick (seconds : Nat)
  | claim (owner : String)
  | poll
  | cancel
  | relay
  | advance (task : Nat) (ok endpoint : Bool)
  | answer (task : Nat)
  | giveUp (task : Nat)
  | serve (request : Nat) (outcome : Outcome)
  | agent (stage : Stage) (reason : String)

namespace System

def setTask (s : System) (i : Nat) (task : Task) : System :=
  { s with tasks := s.tasks.set i task }

def spawn (s : System) (task : Task) : System := { s with tasks := s.tasks ++ [task] }

def ask (s : System) (i : Nat) (call : Call) (wait : Nat → Task) : System :=
  ({ s with requests := s.requests.send call } : System).setTask i (wait s.requests.length)

def handlerNext (s : System) (i : Nat) : HandlerNext → System
  | .go point => s.setTask i (.handler point)
  | .ask call wait => s.ask i call fun k => .handler (wait k)

def work (s : System) (i : Nat) (w : Worker) (ok endpoint : Bool) : Option System :=
  match w.point with
  | .start =>
    if ok = false then some (s.setTask i (.worker { w with point := .writing .retry }))
    else if w.job.cancelRequested then
      some (s.setTask i (.worker { w with
        point := .writing (.finish .cancelled none "migration cancelled before dispatch") }))
    else if endpoint = false then
      some (s.setTask i (.worker { w with point := .writing (.finish .failed none
        ("source has no dispatchable agent endpoint (no local agent URL and remote dispatch is " ++
          "disabled or has no agent URL)")) }))
    else if w.job.agentMigrationID = "" then
      some (s.ask i .create fun k => .worker { w with point := .creating k })
    else
      some (s.setTask i (.worker { w with
        agentID := w.job.agentMigrationID, point := .writing .assign }))
  | .writing write =>
    let row := if ok then write.apply w s.row s.now else none
    some (({ s with row := row.getD s.row } : System).setTask i (.worker (write.next w row)))
  | .refresh =>
    -- The local record is replaced by the row, its lease owner included.
    let job := if ok then s.row else w.job
    if job.cancelRequested then
      some (s.ask i (.cancel w.agentID) fun k => .worker { w with job, point := .cancelling k })
    else some (s.ask i (.get w.agentID) fun k => .worker { w with job, point := .polling k })
  | .waiting => some (s.setTask i (.worker { w with point := if ok then .refresh else .done }))
  | .creating _ | .cancelling _ | .polling _ | .done => none

def handle (s : System) (i : Nat) (point : HandlerPoint) (ok : Bool) : Option System :=
  match point with
  | .settling settlement =>
    let row := if ok then
        updateMigrationStatus s.row settlement.status settlement.progressAgentID settlement.reason
      else s.row
    some (({ s with row } : System).setTask i (.handler .done))
  | .requesting =>
    let row := if ok then (requestManagedMigrationCancel s.row).getD s.row else s.row
    some (({ s with row } : System).setTask i (.handler .done))
  | point => if ok then (point.reads s.row).map (s.handlerNext i)
             else (point.reads s.row).map fun _ => s.setTask i (.handler .done)

def Task.waitsFor : Task → Option Nat
  | .worker w =>
    match w.point with
    | .creating k | .cancelling k | .polling k => some k
    | _ => none
  | .handler point =>
    match point with
    | .listing k _ | .getting k _ | .creating k | .cancelling k _ => some k
    | _ => none

def answered (s : System) (i : Nat) (reply : Reply) : Task → Option System
  | .worker w => (w.answered reply).map fun w' => s.setTask i (.worker w')
  | .handler point => (point.answered reply s.now).map (s.handlerNext i)

def step (s : System) : Action → Option System
  | .tick seconds => some { s with now := s.now + seconds }
  | .claim owner =>
    (claimNextManagedMigration s.row owner migrationWorkerLease s.now).map fun row =>
      ({ s with row } : System).spawn
        (.worker { claim := row.attemptCount, job := row, agentID := "", result := none,
                   point := .start })
  | .poll => some (s.spawn (.handler .poll))
  | .cancel => some (s.spawn (.handler .cancel))
  | .relay =>
    -- A relayed job is started by the agent itself, on the command it has claimed.
    if s.row.managed then none else some { s with requests := s.requests.send .create }
  | .advance i ok endpoint =>
    match s.tasks[i]? with
    | some (.worker w) => s.work i w ok endpoint
    | some (.handler point) => s.handle i point ok
    | none => none
  | .answer i =>
    match s.tasks[i]? with
    | some task =>
      ((Task.waitsFor task).bind s.requests.reply).bind fun reply => s.answered i reply task
    | none => none
  | .giveUp i =>
    match s.tasks[i]? with
    | some task => (Task.waitsFor task).bind fun _ => s.answered i .failed task
    | none => none
  | .serve k outcome =>
    (s.requests.pending k).map fun call =>
      match outcome with
      | .ok id =>
        { s with agent := (serveCall s.agent id call).1,
                 requests := s.requests.answer k (serveCall s.agent id call).2 }
      | .refuse => { s with requests := s.requests.answer k .refused }
      | .fail => { s with requests := s.requests.answer k .failed }
  | .agent stage reason =>
    match s.agent with
    | some m =>
      if canTransition m.stage stage then
        some { s with agent := some { m with stage, failureReason := reason } }
      else none
    | none => none

def initial (managed dispatched : Bool) : System where
  now := 0
  row := { managed, status := .queued, progressAgentID := "", errorMessage := "",
           agentMigrationID := "", nextAttemptAt := 0, leaseOwner := none, leaseExpiresAt := none,
           attemptCount := 0, cancelRequested := false, createdAt := 0 }
  agent := none
  requests := []
  tasks := if dispatched && !managed then [.handler .dispatch] else []

end System

end Shiftgate.Jobs
