import Shiftgate.Checkpoint.Transactions
import Shiftgate.Transfer.Session

/-! The destination of a transfer, from `internal/transfer/server.go`: the handlers that act on one
session, its restores, and the restart of the agent. A request in progress is a task that stands at
a point, and every step from one point to the next is atomic. -/

namespace Shiftgate.Transfer

open Checkpoint

structure Manifest where
  id : String
  sourceID : String
  workloadID : String
  keyVersion : UInt32
  deriving DecidableEq

structure HoldRequest where
  keepLast : Int
  sourceAgentURL : String
  fencingProvider : String
  deriving DecidableEq

inductive Request where
  | reserve (r : Reservation)
  | importKey (workloadID : String) (keyVersion : UInt32)
  | importManifest (manifest : Manifest)
  | importChunk (version : UInt32) (storedSize : Int64)
  | verify
  | restore
  | commit
  | rollback
  | hold (input : HoldRequest)
  | get
  | getCleanup
  deriving DecidableEq

inductive Answer where
  | session (session : Session)
  | restore (id : Nat)
  | missing
  | error (status : Nat) (code : String)
  | lost
  deriving DecidableEq

inductive RollbackCaller where
  | handler
  | reaper
  | undo
  | prepare
  deriving DecidableEq

/-- Where a request stands: what its handler has read and what it does next. -/
inductive Point where
  | importKey (keyVersion : UInt32)
  | importManifest (checkpointID : String)
  | chunkGate (storedSize : Int64)
  | chunkImport (storedSize : Int64) (session : Session)
  | verify
  | preparing (point : PreparePoint)
  | prepared (id : Nat)
  | prepareFailed
  | committing (point : CommitPoint)
  | committed
  | rolling (caller : RollbackCaller) (point : RollbackPoint)
  | rolledBack (restoreID : Option Nat)
  | hold (input : HoldRequest)
  | done (answer : Answer)
  deriving DecidableEq

structure Task where
  source : String
  point : Point
  deriving DecidableEq

inductive Phase where
  | down
  | booting
  | up
  deriving DecidableEq

structure Destination where
  session : Option Session := none
  restores : Restores := {}
  tasks : List Task := []
  now : Nat := 0
  phase : Phase := .up
  standby : Bool := false
  deriving DecidableEq

inductive Work where
  | ok
  | fail
  | duplicate
  deriving DecidableEq

def validCheckpointID (id : String) : Bool :=
  id ≠ "" && id.utf8ByteSize ≤ 64 && id.toList.all fun c =>
    ('a' ≤ c && c ≤ 'z') || ('A' ≤ c && c ≤ 'Z') || ('0' ≤ c && c ≤ '9') || c = '-' || c = '_'

def transferNotFound : Answer := .error 404 "TRANSFER_NOT_FOUND"

def transferStateInvalid : Answer := .error 409 "TRANSFER_STATE_INVALID"

def transferPersistFailed : Answer := .error 500 "TRANSFER_PERSIST_FAILED"

def Destination.admitted (d : Destination) (source : String) (allowed : List SessionState)
    (next : Session → Point) : Point :=
  match getSession d.session source d.now with
  | .error _ => .done transferNotFound
  | .ok session =>
    match requireState session allowed with
    | .error _ => .done transferStateInvalid
    | .ok () => next session

def Destination.startPoint (d : Destination) (source : String) : Request → Point
  | .reserve _ => .done transferNotFound
  | .importKey workloadID keyVersion =>
    match getSession d.session source d.now with
    | .error _ => .done transferNotFound
    | .ok session =>
      if session.workloadID ≠ workloadID then .done (.error 409 "WORKLOAD_MISMATCH")
      else .importKey keyVersion
  | .importManifest manifest =>
    d.admitted source [.keyReady, .manifestReady] fun session =>
      if manifest.sourceID ≠ source ∨ manifest.workloadID ≠ session.workloadID ∨
          manifest.keyVersion ≠ session.keyVersion then
        .done (.error 403 "MANIFEST_IDENTITY_MISMATCH")
      else if validCheckpointID manifest.id = false then .done (.error 400 "MANIFEST_INVALID")
      else if session.checkpointID ≠ "" ∧ session.checkpointID ≠ manifest.id then
        .done (.error 409 "MANIFEST_REPLACED")
      else .importManifest manifest.id
  | .importChunk version storedSize =>
    d.admitted source [.keyReady, .manifestReady] fun session =>
      if version ≠ session.keyVersion then .done (.error 400 "KEY_VERSION_INVALID")
      else .chunkGate storedSize
  | .verify => d.admitted source [.manifestReady, .verified] fun _ => .verify
  | .restore =>
    match getSession d.session source d.now with
    | .error _ => .done transferNotFound
    | .ok session =>
      match session.state, session.restoreID with
      | .restored, some id => .done (.restore id)
      | _, _ =>
        match requireState session [.verified] with
        | .error _ => .done transferStateInvalid
        | .ok () =>
          if validCheckpointID session.checkpointID then .preparing .admission
          else .done transferStateInvalid
  | .commit =>
    match getSession d.session source d.now with
    | .error _ => .done transferNotFound
    | .ok session =>
      if session.state = .committed then .done (.session session)
      else
        match requireState session [.restored], session.restoreID with
        | .error _, _ => .done transferStateInvalid
        | .ok (), none => .done (.error 500 "RESTORE_COMMIT_FAILED")
        | .ok (), some id => .committing (.read id)
  | .rollback =>
    match getForCleanup d.session source with
    | .error _ => .done transferNotFound
    | .ok session =>
      if session.state = .committed then .done (.error 409 "TRANSFER_ALREADY_COMMITTED")
      else
        match session.restoreID with
        | none => .rolledBack none
        | some id => .rolling .handler (.read id)
  | .hold input =>
    if d.standby = false then .done (.error 503 "STANDBY_NOT_AVAILABLE")
    else if input.keepLast < 0 then .done (.error 400 "HOLD_INVALID")
    else
      match getSession d.session source d.now with
      | .error _ => .done transferNotFound
      | .ok session =>
        if session.state = .held then .done (.session session)
        else if session.purpose ≠ purposeReplication then .done transferStateInvalid
        else
          match requireState session [.verified] with
          | .error _ => .done transferStateInvalid
          | .ok () => .hold input
  | .get =>
    match getSession d.session source d.now with
    | .error _ => .done transferNotFound
    | .ok session => .done (.session session)
  | .getCleanup =>
    match getForCleanup d.session source with
    | .error _ => .done transferNotFound
    | .ok session => .done (.session session)

def Destination.setSession (d : Destination) (session : Session) : Destination :=
  { d with session := some session }

def Destination.setRestores (d : Destination) (restores : Restores) : Destination :=
  { d with restores }

inductive Refusal where
  | already
  | state
  | quota

/-- The change of each handler's write-back. Only `importKey`, `commit` and `hold` look at the state
again. -/
def Point.change : Point → Session → Except Refusal Session
  | .importKey keyVersion, s =>
    if s.state ∈ [.reserved, .keyReady] then .ok { s with keyVersion, state := .keyReady }
    else .error .state
  | .importManifest checkpointID, s => .ok { s with checkpointID, state := .manifestReady }
  | .chunkGate storedSize, s =>
    if s.receivedBytes + storedSize > quotaLimit s.estimatedBytes then .error .quota
    else if s.attemptedBytes + storedSize > attemptLimit s.estimatedBytes then .error .quota
    else .ok { s with attemptedBytes := s.attemptedBytes + storedSize,
                      receivedBytes := s.receivedBytes + storedSize }
  | .chunkImport storedSize _, s => .ok { s with receivedBytes := s.receivedBytes - storedSize }
  | .verify, s => .ok { s with state := .verified }
  | .prepared id, s => .ok { s with state := .restored, restoreID := some id }
  | .prepareFailed, s => .ok { s with state := .failed, failureReason := "restore failed" }
  | .committed, s =>
    if s.state = .committed then .error .already
    else if s.state = .restored then .ok { s with state := .committed }
    else .error .state
  | .rolledBack _, s => .ok { s with state := .rolledBack }
  | .hold input, s =>
    if s.state = .held then .error .already
    else if s.state = .verified then
      .ok { s with state := .held, keepLast := input.keepLast,
                   sourceAgentURL := input.sourceAgentURL,
                   fencingProvider := input.fencingProvider }
    else .error .state
  | .preparing _, s | .committing _, s | .rolling .., s | .done _, s => .ok s

/-- The write-backs of a failed restore and of a rollback ignore the expiry. -/
def Point.cleanup : Point → Bool
  | .prepareFailed | .rolledBack _ => true
  | _ => false

def Destination.target (d : Destination) (task : Task) : Except AccessError Session :=
  if task.point.cleanup then getForCleanup d.session task.source
  else getSession d.session task.source d.now

def Destination.writeBack (d : Destination) (task : Task) : Except (UpdateError Refusal) Session :=
  if task.point.cleanup then updateCleanup d.session task.source task.point.change
  else updateSession d.session task.source d.now task.point.change

def RollbackCaller.resume (caller : RollbackCaller) (id : Nat) (ok : Bool) : Point :=
  match caller, ok with
  | .handler, true => .rolledBack (some id)
  | .handler, false => .done (.error 500 "RESTORE_ROLLBACK_FAILED")
  | .reaper, _ => .done .lost
  | .undo, _ => .done transferPersistFailed
  | .prepare, _ => .prepareFailed

/-- The answer of a write-back that ends its request, and what it finds stored. -/
def Point.answer (point : Point) (stored : Option Session)
    (result : Except (UpdateError Refusal) Session) : Answer :=
  match point, result with
  | .importManifest _, .ok _ => .missing
  | .prepared id, .ok _ => .restore id
  | .prepareFailed, _ => .error 422 "RESTORE_FAILED"
  | .importKey _, .error _ => transferStateInvalid
  | .chunkGate _, .error (.refused _) => .error 507 "TRANSFER_QUOTA_EXCEEDED"
  | _, .ok session => .session session
  -- another request made the transition: its session is the answer
  | _, .error (.refused .already) => (stored.map Answer.session).getD transferPersistFailed
  | _, .error (.refused _) => transferStateInvalid
  | _, .error (.access _) => transferPersistFailed

def Point.afterWrite (point : Point) (stored : Option Session)
    (result : Except (UpdateError Refusal) Session) : Point :=
  match point, result with
  | .chunkGate storedSize, .ok session => .chunkImport storedSize session
  -- a restore that cannot be recorded is taken back
  | .prepared id, .error _ => .rolling .undo (.read id)
  | _, _ => .done (point.answer stored result)

def Destination.write (d : Destination) (task : Task) : Destination × Point :=
  match d.writeBack task with
  | .ok session => (d.setSession session, task.point.afterWrite d.session (.ok session))
  | .error err => (d, task.point.afterWrite d.session (.error err))

def Point.workFailed : Point → Answer
  | .importKey _ => .error 409 "KEY_IMPORT_FAILED"
  | .importManifest _ => .error 409 "MANIFEST_IMPORT_FAILED"
  | .chunkGate _ => .error 507 "STORAGE_INSUFFICIENT"
  | .verify => .error 422 "CHECKPOINT_CORRUPT"
  | _ => transferPersistFailed

def afterPrepare : PrepareNext → Point
  | .next point => .preparing point
  | .refused => .prepareFailed
  | .unwind id => .rolling .prepare (.begin id)
  | .prepared id => .prepared id

def afterCommit : CommitNext → Point
  | .next point => .committing point
  | .returned true => .committed
  | .returned false => .done (.error 500 "RESTORE_COMMIT_FAILED")

def afterRollback (caller : RollbackCaller) (id : Nat) : RollbackNext → Point
  | .next point => .rolling caller point
  | .returned ok => caller.resume id ok

def Destination.advancePoint (d : Destination) (task : Task) (work : Work) :
    Option (Destination × Point) :=
  match task.point with
  | .importKey _ | .importManifest _ | .chunkGate _ | .verify =>
    if work = .ok then some (d.write task) else some (d, .done task.point.workFailed)
  | .chunkImport _ session =>
    -- the reserved bytes are given back unless the chunk is new
    match work with
    | .ok => some (d, .done (.session session))
    | .fail => some ((d.write task).1, .done (.error 400 "CHUNK_IMPORT_FAILED"))
    | .duplicate =>
      match d.writeBack task with
      | .ok updated => some (d.setSession updated, .done (.session updated))
      | .error _ => some (d, .done (.session session))
  | .preparing point =>
    (prepareStep d.restores (work = .ok) point).map fun (restores, next) =>
      (d.setRestores restores, afterPrepare next)
  | .committing point =>
    let (restores, next) := commitStep d.restores (work = .ok) point
    some (d.setRestores restores, afterCommit next)
  | .rolling caller point =>
    let (restores, next) := rollbackStep d.restores (work = .ok) point
    some (d.setRestores restores, afterRollback caller point.id next)
  | .prepared _ | .prepareFailed | .committed | .rolledBack _ | .hold _ => some (d.write task)
  | .done _ => none

inductive Action where
  | start (source : String) (request : Request)
  | advance (task : Nat) (work : Work)
  | reapExpired
  | tick
  | processExit
  | crash
  | recover (id : Nat) (outcome : RecoverOutcome)
  | boot
  | serve

def Destination.addTask (d : Destination) (source : String) (point : Point) : Destination :=
  { d with tasks := d.tasks ++ [⟨source, point⟩] }

def Destination.start (d : Destination) (source : String) (request : Request) : Destination :=
  match request with
  | .reserve r =>
    if r.sourceMachineID ≠ source then
      d.addTask source (.done (.error 403 "SOURCE_IDENTITY_MISMATCH"))
    else if r.estimatedBytes < 0 then d.addTask source (.done (.error 400 "ESTIMATE_INVALID"))
    else
      match reserve d.session d.now r with
      | .error _ => d.addTask source (.done (.error 409 "RESERVATION_REJECTED"))
      | .ok (session, stored) =>
        { d with session := stored }.addTask source (.done (.session session))
  | _ => d.addTask source (d.startPoint source request)

def Destination.reapExpired (d : Destination) : Destination :=
  let reaped := { d with session := reap d.session d.now }
  match d.session with
  | none => reaped
  | some session =>
    match sessionExpired session d.now, session.restoreID with
    | true, some id => reaped.addTask session.sourceMachineID (.rolling .reaper (.read id))
    | _, _ => reaped

def Destination.crash (d : Destination) : Destination :=
  { d with
    phase := .down
    tasks := d.tasks.map fun task =>
      match task.point with
      | .done _ => task
      | _ => { task with point := .done .lost }
    restores := d.restores.endRestore }

def Task.finished (task : Task) : Bool :=
  match task.point with
  | .done _ => true
  | _ => false

def Destination.advance (d : Destination) (i : Nat) (work : Work) : Option Destination :=
  d.tasks[i]?.bind fun task =>
    (d.advancePoint task work).map fun (d', point) =>
      { d' with tasks := d.tasks.set i { task with point } }

/-- A boot recovers every restore record, then reaps, and serves when the reaped restores are dealt
with. -/
def Destination.step (d : Destination) : Action → Option Destination
  | .start source request => if d.phase = .up then some (d.start source request) else none
  | .advance i work => if d.phase = .down then none else d.advance i work
  | .reapExpired => if d.phase = .up then some d.reapExpired else none
  | .tick => some { d with now := d.now + 1 }
  | .processExit => some (d.setRestores d.restores.stopProcess)
  | .crash => some d.crash
  | .recover id outcome =>
    if d.phase = .down then some (d.setRestores (recoverRecord d.restores id outcome)) else none
  | .boot =>
    if d.phase = .down ∧ d.restores.recovered then
      some { d.reapExpired with phase := .booting }
    else none
  | .serve =>
    if d.phase = .booting ∧ d.tasks.all Task.finished then some { d with phase := .up } else none

end Shiftgate.Transfer
