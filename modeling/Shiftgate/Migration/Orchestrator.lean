import Shiftgate.Transfer.Session
import Shiftgate.Library.Runs

/-! The source of one migration (`internal/migration/orchestrator.go`, `freezestate.go`) and what
`internal/runtime/manager.go` does to its process. `run` is a list of instructions. A crash can come
between any two steps, and every write can fail. -/

namespace Shiftgate.Migration

open Transfer (SessionState)

inductive Stage where
  | created
  | discover
  | validate
  | snapshot
  | prepare
  | transfer
  | verify
  | restore
  | postValidate
  | switch
  | commit
  | cleanup
  | completed
  | failed
  | rollingBack
  | rolledBack
  | cancelled
  deriving DecidableEq

def transitions : Stage → List Stage
  | .created => [.discover, .failed, .cancelled]
  | .discover => [.validate, .rollingBack, .failed, .cancelled]
  | .validate => [.snapshot, .rollingBack, .failed, .cancelled]
  | .snapshot => [.prepare, .transfer, .rollingBack, .failed, .cancelled]
  | .prepare => [.transfer, .rollingBack, .failed, .cancelled]
  | .transfer => [.verify, .rollingBack, .failed, .cancelled]
  | .verify => [.restore, .rollingBack, .failed, .cancelled]
  | .restore => [.postValidate, .failed, .rollingBack, .cancelled]
  | .postValidate => [.switch, .rollingBack, .failed, .cancelled]
  | .switch => [.commit, .rollingBack, .failed, .cancelled]
  | .commit => [.cleanup, .rollingBack, .failed, .cancelled]
  | .cleanup => [.completed, .failed, .cancelled]
  | .rollingBack => [.rolledBack, .failed, .cancelled]
  | .completed | .failed | .rolledBack | .cancelled => []

def canTransition (start target : Stage) : Bool := target ∈ transitions start

def Stage.terminal : Stage → Bool
  | .completed | .rolledBack | .cancelled | .failed => true
  | _ => false

inductive Mode where
  | cold
  | live
  deriving DecidableEq

def frozenStageRank : Stage → Option Nat
  | .snapshot => some 1
  | .prepare => some 2
  | .transfer => some 3
  | .verify => some 4
  | .restore => some 5
  | .postValidate => some 6
  | .switch => some 7
  | .commit => some 8
  | .cleanup => some 9
  | .rollingBack => some 10
  | _ => none

/-- `recoveryOwnsFreeze`; `fact` is `OwnsFreeze` of the stored freeze fact. -/
def recoveryOwnsFreeze (mode : Mode) (stage : Stage) (fact : Option Bool) : Bool :=
  match fact with
  | some owns => owns
  | none =>
    match frozenStageRank stage, mode with
    | none, _ => false
    | some rank, .live => 3 ≤ rank
    | some _, .cold => true

inductive Call where
  | reserve
  | importKey
  | verify
  | restore
  | get
  | commit
  | rollback
  | getCleanup
  deriving DecidableEq

inductive CheckpointStep where
  /-- `Pause` sends SIGSTOP. -/
  | stop
  /-- `Pause` records the status. -/
  | put
  /-- The dump, the capture and the save of the manifest. -/
  | dump
  /-- The bookkeeping after the save, and `MarkCheckpoint`. -/
  | mark
  deriving DecidableEq

inductive Instr where
  | transition (stage : Stage)
  /-- Work that can fail and changes nothing that is modelled. -/
  | check
  /-- `runtime.Get`: the status that the whole run goes by. -/
  | readWorkload
  | noteFreezeOwnership
  | noteDowntimeStart
  /-- `sourceFrozen` before a cold checkpoint. -/
  | claimFreeze
  | checkpoint (step : CheckpointStep)
  /-- The checkpoint of a paused workload: the dump, and `MarkCheckpoint`. -/
  | checkpointPaused
  /-- `sourceFrozen` after a checkpoint that froze the workload. -/
  | confirmFreeze
  | call (c : Call)
  /-- Chunks, and in the second form manifests too, are sent any number of times. -/
  | uploadPasses
  | transferRounds
  /-- The CLEANUP stage, whose loss is only logged. -/
  | cleanup
  deriving DecidableEq

def checkpointSteps : List Instr :=
  [.checkpoint .stop, .checkpoint .put, .checkpoint .dump, .checkpoint .mark]

def openSession : List Instr := [.call .reserve, .check, .call .importKey]

def capture : Mode → List Instr
  | .cold => [.noteDowntimeStart, .claimFreeze, .check] ++ checkpointSteps
  | .live => [.check] ++ openSession ++ [.uploadPasses, .noteDowntimeStart, .check] ++
      checkpointSteps

def lateSession : Mode → List Instr
  | .cold => .transition .prepare :: openSession
  | .live => []

def opening : List Instr :=
  [.transition .discover, .readWorkload, .noteFreezeOwnership, .check, .transition .validate,
    .check, .noteDowntimeStart, .transition .snapshot]

def handover : List Instr :=
  [.transition .transfer, .transferRounds, .check, .transition .verify, .call .verify,
    .transition .restore, .call .restore, .transition .postValidate, .call .get,
    .transition .switch, .transition .commit, .call .commit, .cleanup]

def run (mode : Mode) : List Instr :=
  opening ++ capture mode ++ [.noteDowntimeStart, .confirmFreeze, .check] ++ lateSession mode ++
  handover

/-- `run` on a paused workload, captured as in a cold migration and not stopped. -/
def runPaused : List Instr :=
  opening ++ [.noteDowntimeStart, .claimFreeze, .check, .checkpointPaused, .check] ++
  lateSession .cold ++ handover

inductive WorkloadStatus where
  | running
  | paused
  | checkpointed
  | stopped
  deriving DecidableEq

inductive Process where
  | running
  | stopped
  | dead
  deriving DecidableEq

/-- The local variables of a run or a recovery; `wasRunning` is the status that was read. -/
structure Flags where
  wasRunning : Bool := false
  reserved : Bool := false
  committed : Bool := false
  sourceFrozen : Bool := false
  hasPeer : Bool := true
  deriving DecidableEq

structure Handling where
  cancellation : Bool
  preFailed : Bool := false
  /-- `safeToThaw`. -/
  safe : Bool := false
  resumeFailed : Bool := false
  deriving DecidableEq

def Handling.target (h : Handling) : Stage := if h.cancellation then .cancelled else .rolledBack

inductive HandlerPoint where
  | entry
  | mark (left : Nat)
  | rollback (left : Nat)
  | probe
  | thaw
  /-- `Resume` has sent SIGCONT and records the status. -/
  | thawed
  | preserve
  | settle
  deriving DecidableEq

inductive StopSite where
  | run
  | settleCommitted
  | recoverOne
  deriving DecidableEq

inductive Control where
  /-- The agent is down. -/
  | down
  /-- No goroutine works on the migration. -/
  | idle
  | running (rest : List Instr) (flags : Flags)
  /-- A failed checkpoint resumes the workload: before SIGCONT, and before the record. -/
  | undoing (flags : Flags) (cancelled : Bool)
  | undone (flags : Flags) (cancelled : Bool)
  /-- A failed live checkpoint that froze the workload: its freeze is noted. -/
  | noting (flags : Flags) (cancelled : Bool)
  | handling (point : HandlerPoint) (flags : Flags) (h : Handling)
  /-- `recoverOne` probes the destination. -/
  | recovering (flags : Flags)
  | stopping (site : StopSite) (left : Nat)
  /-- The outcome is recorded, the migration completed, or completed by force. -/
  | preserving (stopped : Bool)
  | completing (stopped : Bool)
  | forcing (stopped : Bool)
  deriving DecidableEq

/-- `froze` and `stopCalls` are kept for the statements: this migration has stopped the process, and
how often it has called `runtime.Stop`. -/
structure Source where
  mode : Mode
  stage : Stage := .created
  sourcePreserved : Bool := true
  fact : Option Bool := none
  status : WorkloadStatus := .running
  recorded : Bool := true
  process : Process := .running
  froze : Bool := false
  stopCalls : Nat := 0
  control : Control
  deriving DecidableEq

def Source.admitted (mode : Mode) : Source := { mode, control := .running (run mode) {} }

def Source.admittedPaused (mode : Mode) : Source :=
  { mode, status := .paused, process := .stopped, control := .running runPaused {} }

inductive Reply where
  | session (state : SessionState)
  | done
  | notFound
  | failed
  deriving DecidableEq

def Reply.ok : Reply → Bool
  | .session _ | .done => true
  | .notFound | .failed => false

inductive StopOutcome where
  | ok
  /-- The process is killed and the record is not written. -/
  | unrecorded
  /-- The process was sent SIGCONT, and the signal that ends it failed. -/
  | continued
  | failed

namespace Source

def alive (s : Source) : Bool := s.recorded && s.process ≠ .dead

def goto (s : Source) (control : Control) : Source := { s with control }

def fail (s : Source) (f : Flags) (cancelled : Bool) : Source :=
  s.goto (.handling .entry f { cancellation := cancelled })

def undoes : Mode → CheckpointStep → Bool
  | .cold, .mark => false
  | .cold, _ => true
  | .live, .dump | .live, .mark => true
  | .live, _ => false

def checkpointFailed (s : Source) (step : CheckpointStep) (f : Flags) (cancelled : Bool) : Source :=
  if undoes s.mode step then s.goto (.undoing f cancelled) else s.fail f cancelled

def checkpointStep (s : Source) (rest : List Instr) (f : Flags) (ok cancelled : Bool) :
    CheckpointStep → Source
  | .stop =>
    if ok ∧ s.alive ∧ s.status = .running then
      { s with process := .stopped, froze := true, control := .running rest f }
    else s.checkpointFailed .stop f cancelled
  | .put =>
    if ok then { s with status := .paused, control := .running rest f }
    else s.checkpointFailed .put f cancelled
  | .dump => if ok then s.goto (.running rest f) else s.checkpointFailed .dump f cancelled
  | .mark =>
    if ok then { s with status := .checkpointed, control := .running rest f }
    else s.checkpointFailed .mark f cancelled

def runStep (s : Source) (rest : List Instr) (f : Flags) (ok cancelled : Bool) :
    Instr → Option Source
  | .transition stage =>
    if ok ∧ canTransition s.stage stage then some { s with stage, control := .running rest f }
    else some (s.fail f cancelled)
  | .check | .uploadPasses | .transferRounds =>
    if ok then some (s.goto (.running rest f)) else some (s.fail f cancelled)
  | .readWorkload =>
    if ok then some (s.goto (.running rest { f with wasRunning := s.status = .running }))
    else some (s.fail f cancelled)
  | .noteFreezeOwnership =>
    some { s with fact := if ok then some f.wasRunning else s.fact, control := .running rest f }
  | .noteDowntimeStart =>
    -- a fact that is not there yet is created without ownership
    some { s with fact := if ok then some (s.fact.getD false) else s.fact
                  control := .running rest f }
  | .claimFreeze | .confirmFreeze =>
    some (s.goto (.running rest { f with sourceFrozen := f.wasRunning }))
  | .checkpoint step => some (s.checkpointStep rest f ok cancelled step)
  | .checkpointPaused =>
    if ok then some { s with status := .checkpointed, control := .running rest f }
    else some (s.fail f cancelled)
  | .call _ => none
  | .cleanup =>
    some { s with stage := if ok ∧ canTransition s.stage .cleanup then .cleanup else s.stage
                  control := .stopping .run 3 }

def afterUndo (s : Source) (f : Flags) (cancelled : Bool) : Source :=
  match s.mode with
  | .cold => s.fail f cancelled
  | .live => s.goto (.noting f cancelled)

def runReply (s : Source) (rest : List Instr) (f : Flags) (r : Reply) (cancelled : Bool) :
    Call → Source
  | .reserve =>
    if r.ok then s.goto (.running rest { f with reserved := true }) else s.fail f cancelled
  | .commit =>
    if r.ok then s.goto (.running rest { f with committed := true }) else s.fail f cancelled
  | .get => if r = .session .restored then s.goto (.running rest f) else s.fail f cancelled
  | _ => if r.ok then s.goto (.running rest f) else s.fail f cancelled

def handle (s : Source) (point : HandlerPoint) (f : Flags) (h : Handling) : Source :=
  s.goto (.handling point f h)

def unconfirmed (s : Source) (f : Flags) (h : Handling) : Source :=
  if f.sourceFrozen ∧ f.hasPeer then s.handle .probe f h else s.handle .thaw f h

def beginRollback (s : Source) (f : Flags) (h : Handling) : Source :=
  if f.reserved = false then s.handle .thaw f { h with safe := true }
  else if f.hasPeer = false then s.unconfirmed f h
  else s.handle (.rollback 4) f h

/-- A committed migration is settled, any other goes to ROLLING_BACK, or when its stage cannot, to
FAILED. A cancellation records first that the source is preserved. -/
def handlerEntry (s : Source) (f : Flags) (h : Handling) (ok : Bool) : Source :=
  let preserved := if h.cancellation ∧ ok then { s with sourcePreserved := true } else s
  if s.stage.terminal then s.goto .idle
  else if f.committed then preserved.goto (.stopping .settleCommitted 3)
  else if s.stage = .rollingBack then preserved.beginRollback f h
  else if canTransition s.stage .rollingBack then preserved.handle (.mark 3) f h
  else if h.cancellation = false ∧ canTransition s.stage .failed then
    { preserved with stage := if ok then .failed else s.stage }.beginRollback f
      { h with preFailed := true }
  else preserved.beginRollback f h

/-- A workload whose record says RUNNING counts as resumed, and one without a process is left. -/
def thaw (s : Source) (f : Flags) (h : Handling) : Source :=
  if f.sourceFrozen ∧ h.safe then
    if s.status = .running then s.handle .preserve f h
    else if s.recorded = false then s.handle .preserve f h
    else if s.process = .dead then s.handle .preserve f { h with resumeFailed := true }
    else { s with process := .running }.handle .thawed f h
  else s.handle .preserve f h

def handlerStep (s : Source) (f : Flags) (h : Handling) (ok : Bool) : HandlerPoint → Option Source
  | .entry => some (s.handlerEntry f h ok)
  | .mark left =>
    if ok then some ({ s with stage := .rollingBack }.beginRollback f h)
    else if left ≤ 1 then some (s.beginRollback f h)
    else some (s.handle (.mark (left - 1)) f h)
  | .rollback _ | .probe => none
  | .thaw => some (s.thaw f h)
  | .thawed =>
    if ok then some ({ s with status := .running }.handle .preserve f h)
    else some (s.handle .preserve f { h with resumeFailed := true })
  | .preserve =>
    some ({ s with sourcePreserved := s.sourcePreserved || ok }.handle .settle f h)
  | .settle =>
    if h.preFailed = false ∧ h.safe ∧ h.resumeFailed = false ∧ ok then
      some { s with stage := h.target, control := .idle }
    else some (s.goto .idle)

def probeSafe : Reply → Bool
  | .session .reserved | .session .keyReady | .session .manifestReady => true
  | .session .rolledBack | .session .failed => true
  | .notFound => true
  | _ => false

def handlerReply (s : Source) (f : Flags) (h : Handling) (r : Reply) (cancelled : Bool) :
    HandlerPoint → Option Source
  | .rollback left =>
    if r.ok ∨ r = .notFound then some (s.handle .thaw f { h with safe := true })
    else if left ≤ 1 ∨ cancelled then some (s.unconfirmed f h)
    else some (s.handle (.rollback (left - 1)) f h)
  | .probe => some (s.handle .thaw f { h with safe := probeSafe r })
  | _ => none

def reconcile (s : Source) : Source :=
  if s.process = .dead then { s with recorded := false, status := .stopped } else s

def recoveryFlags (s : Source) (client : Bool) : Flags :=
  { reserved := true, sourceFrozen := recoveryOwnsFreeze s.mode s.stage s.fact, hasPeer := client }

/-- The agent restarts and takes the migration up, unless it has ended. `client` says whether a
client can be made. -/
def recover (s : Source) (client : Bool) : Source :=
  if s.stage.terminal then s.reconcile.goto .idle
  else if client then s.reconcile.goto (.recovering (s.recoveryFlags client))
  else s.reconcile.fail (s.recoveryFlags client) false

def recoverReply (s : Source) (f : Flags) : Reply → Source
  | .session .committed => s.goto (.stopping .recoverOne 3)
  | .session .rolledBack | .session .failed => s.fail { f with reserved := false } false
  | .notFound => s.fail { f with reserved := false } false
  | _ => s.fail f false

def afterStop (site : StopSite) (stopped : Bool) : Control :=
  match site with
  | .run => .preserving stopped
  | .settleCommitted | .recoverOne => .forcing stopped

/-- One attempt of `stopSourceWithRetry`: `runtime.Stop` sends SIGCONT first, unless the workload is
CHECKPOINTED. -/
def stopStep (s : Source) (site : StopSite) (left : Nat) (outcome : StopOutcome) : Option Source :=
  let called := { s with stopCalls := s.stopCalls + 1 }
  let retry := if left ≤ 1 then afterStop site false else .stopping site (left - 1)
  match outcome with
  | .ok => some { called with process := .dead, recorded := false, status := .stopped
                              control := afterStop site true }
  | .unrecorded => some { called with process := .dead, control := retry }
  | .continued =>
    if s.alive ∧ s.status ≠ .checkpointed then
      some { called with process := .running, control := retry }
    else none
  | .failed => some (called.goto retry)

inductive Event where
  /-- The next step that is not a call; it succeeds or not, and a run that fails may have been
  cancelled. -/
  | step (ok cancelled : Bool)
  | reply (r : Reply) (cancelled : Bool)
  | stop (outcome : StopOutcome)
  /-- The process exits, and the runtime may record it. -/
  | exit (written : Bool)
  | crash
  | recover (client : Bool)

def pending (s : Source) : Option Call :=
  match s.control with
  | .running (.call c :: _) _ => some c
  | .handling (.rollback _) _ _ => some .rollback
  | .handling .probe _ _ => some .getCleanup
  | .recovering _ => some .getCleanup
  | _ => none

def step (s : Source) : Event → Option Source
  | .step ok cancelled =>
    match s.control with
    | .running (i :: rest) f => s.runStep rest f ok cancelled i
    | .undoing f cancelled =>
      if s.alive then some { s with process := .running, control := .undone f cancelled }
      else some (s.afterUndo f cancelled)
    | .undone f cancelled =>
      if ok then some ({ s with status := .running }.afterUndo f cancelled)
      else some (s.afterUndo f cancelled)
    | .noting f cancelled =>
      some ({ s with fact := if ok then some (s.fact.getD false) else s.fact }.fail
        { f with sourceFrozen := f.wasRunning } cancelled)
    | .handling point f h => s.handlerStep f h ok point
    | .preserving stopped =>
      if ok then some { s with sourcePreserved := !stopped, control := .completing stopped }
      else some (s.goto (.forcing stopped))
    | .completing stopped =>
      if ok ∧ canTransition s.stage .completed then
        some { s with stage := .completed, control := .idle }
      else some (s.goto (.forcing stopped))
    | .forcing stopped =>
      if ok then
        some { s with stage := .completed, sourcePreserved := !stopped, control := .idle }
      else some (s.goto .idle)
    | _ => none
  | .reply r cancelled =>
    match s.control with
    | .running (.call c :: rest) f => some (s.runReply rest f r cancelled c)
    | .handling point f h => s.handlerReply f h r cancelled point
    | .recovering f => some (s.recoverReply f r)
    | _ => none
  | .stop outcome =>
    match s.control with
    | .stopping site left => s.stopStep site left outcome
    | _ => none
  | .exit written =>
    if s.process = .dead then none
    else if written ∧ s.control ≠ .down then
      some { s with process := .dead, recorded := false, status := .stopped }
    else some { s with process := .dead }
  | .crash => some (s.goto .down)
  | .recover client => if s.control = .down then some (s.recover client) else none

end Source

end Shiftgate.Migration
