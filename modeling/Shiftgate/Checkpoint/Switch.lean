import Shiftgate.Library.Program

/-! The filesystem switch of a restore (`internal/checkpoint/restore.go`): `Prepare`, `rollback`,
`Commit` and `Recover` on the three directories and the restore record, in memory and on disk. Of
`BackupRoot` only whether it is set is kept. -/

namespace Shiftgate.Checkpoint

open Library

inductive RestoreState where
  | preparing
  | filesystemSwitched
  | processRunning
  | validated
  | committed
  | rollingBack
  | rolledBack
  deriving DecidableEq

def RestoreState.switched : RestoreState → Bool
  | .filesystemSwitched | .processRunning | .validated | .rollingBack => true
  | .preparing | .committed | .rolledBack => false

structure RestoreRecord where
  state : RestoreState
  backupRoot : Bool

/-- `target`, `backup` and `failed` are the target root, `.shift-backup-ID` and `.shift-failed-ID`.
`record` is the record in memory, `saved` the stored one. `returned` keeps the target of each
successful rollback, at its return. -/
structure SwitchState (T : Type) where
  target : Option T
  backup : Option T
  failed : Option T
  record : RestoreRecord
  saved : Option RestoreRecord
  returned : List (Option T)

inductive Name where
  | target
  | backup
  | failed

section Steps

variable {T : Type} (isEmpty : T → Bool)

def SwitchState.get (s : SwitchState T) : Name → Option T
  | .target => s.target
  | .backup => s.backup
  | .failed => s.failed

def SwitchState.set (s : SwitchState T) (name : Name) (content : Option T) : SwitchState T :=
  match name with
  | .target => { s with target := content }
  | .backup => { s with backup := content }
  | .failed => { s with failed := content }

def putRecord (fault : Fault) : Program (SwitchState T) String Unit :=
  Program.effect fault "write restore record" fun s => { s with saved := some s.record }

def setState (state : RestoreState) : Program (SwitchState T) String Unit :=
  Program.modify fun s => { s with record := { s.record with state } }

def setBackupRoot (backupRoot : Bool) : Program (SwitchState T) String Unit :=
  Program.modify fun s => { s with record := { s.record with backupRoot } }

def renameWithin (fault : Fault) (old new : Name) : Program (SwitchState T) String Unit := do
  let s ← Program.get
  match s.get old with
  | none => Program.throw "no such file or directory"
  | some content =>
    if (s.get new).any (fun existing => !isEmpty existing) then
      Program.throw "directory not empty"
    else
      Program.effect fault "rename" fun s => (s.set new (some content)).set old none

structure RollbackFaults where
  putRollingBack : Fault
  stopProcess : Fault
  pin : Fault
  lstat : Fault
  renameFailed : Fault
  renameBackup : Fault
  runtime : Fault
  putRolledBack : Fault
  syncDir : Fault
  removeFailed : Fault

def removeFailedRoot (faults : RollbackFaults) : Program (SwitchState T) String Unit := do
  let _ ← Program.attempt (Program.effect faults.removeFailed "remove"
    fun s : SwitchState T => { s with failed := none })
  return ()

def moveAside (faults : RollbackFaults) : Program (SwitchState T) String Bool := do
  let s ← Program.get
  if s.target.isSome then do
    renameWithin isEmpty faults.renameFailed .target .failed
    return true
  else return false

def restoreBackup (faults : RollbackFaults) (moved : Bool) :
    Program (SwitchState T) String Unit := do
  let renamed ← Program.attempt (renameWithin isEmpty faults.renameBackup .backup .target)
  match renamed with
  | .ok () => return ()
  | .error _ => do
    Program.onlyIf moved (removeFailedRoot faults)
    Program.throw "restore destination backup"

def rollbackRoots (faults : RollbackFaults) (backupOnDisk : Bool) :
    Program (SwitchState T) String Bool := do
  Program.effect faults.pin "pin target directory" id
  Program.effect faults.lstat "lstat target" id
  let moved ← moveAside isEmpty faults
  if backupOnDisk then do
    restoreBackup isEmpty faults moved
    return moved
  else return moved

def finishRollback (faults : RollbackFaults) : Program (SwitchState T) String Unit := do
  -- Runtime metadata, staging and image directories: errors are ignored.
  Program.point faults.runtime
  setState .rolledBack
  putRecord faults.putRolledBack
  Program.effect faults.syncDir "sync parent directory" id

def endRollback (faults : RollbackFaults) (moved : Bool) :
    Program (SwitchState T) String Unit := do
  let result ← Program.attempt (finishRollback faults)
  Program.onlyIf moved (removeFailedRoot faults)
  Program.liftExcept result
  Program.modify fun s => { s with returned := s.target :: s.returned }

def rollback (faults : RollbackFaults) : Program (SwitchState T) String Unit := do
  let s ← Program.get
  let originalState := s.record.state
  setState .rollingBack
  let _ ← Program.attempt (putRecord faults.putRollingBack)
  Program.point faults.stopProcess
  let backupOnDisk := s.record.backupRoot && s.backup.isSome
  let moved ← if backupOnDisk || originalState.switched
    then rollbackRoots isEmpty faults backupOnDisk else pure false
  endRollback faults moved

def rollbackCall (faults : RollbackFaults) : Program (SwitchState T) String Unit := do
  let s ← Program.get
  match s.saved with
  | none => Program.throw "not found"
  | some record =>
    if record.state = .rolledBack then
      Program.modify fun s => { s with returned := s.target :: s.returned }
    else if record.state = .committed then
      Program.throw "a committed restore cannot be rolled back"
    else do
      Program.modify fun s => { s with record }
      rollback isEmpty faults

/-- `restored` is the extracted tree, `running` what the restored process has made of it, and
`partialCopy` what a failed copy leaves at the target. -/
structure PrepareFaults (T : Type) where
  putPreparing : Fault
  stage : Fault
  putBackup : Fault
  renameBackup : Fault
  materialize : Fault
  partialCopy : Option T
  renameBack : Fault
  syncDir : Fault
  putSwitched : Fault
  prepareRestore : Fault
  putCreated : Fault
  launch : Fault
  putRunning : Fault
  health : Fault
  putValidated : Fault
  restored : T
  running : T
  rollback : RollbackFaults

/-- `materializeRootAt`: one rename, or a copy that can leave part of the tree behind, with the
rename back of the backup when it fails. -/
def activateRoot (faults : PrepareFaults T) : Program (SwitchState T) String Unit :=
  match faults.materialize with
  | .none => Program.modify fun s => { s with target := some faults.restored }
  | .crash => fun s => .crash { s with target := faults.partialCopy }
  | .fail => do
    Program.modify fun s => { s with target := faults.partialCopy }
    let s ← Program.get
    Program.onlyIf s.record.backupRoot (renameWithin isEmpty faults.renameBack .backup .target)
    Program.throw "activate restored filesystem"

def switchRoot (faults : PrepareFaults T) : Program (SwitchState T) String Unit := do
  Program.effect faults.stage "stage, extract and pin" id
  setBackupRoot true
  putRecord faults.putBackup
  let renamed ← Program.attempt (renameWithin isEmpty faults.renameBackup .target .backup)
  match renamed with
  | .error _ => do
    setBackupRoot false
    Program.throw "preserve destination root"
  | .ok () => activateRoot isEmpty faults

def runRestored (faults : PrepareFaults T) : Program (SwitchState T) String Unit := do
  setState .filesystemSwitched
  Program.effect faults.syncDir "sync parent directory" id
  putRecord faults.putSwitched
  Program.effect faults.prepareRestore "prepare runtime" id
  putRecord faults.putCreated
  Program.effect faults.launch "restore process" fun s => { s with target := some faults.running }
  setState .processRunning
  putRecord faults.putRunning
  Program.effect faults.health "health check" id
  setState .validated
  putRecord faults.putValidated

def prepare (faults : PrepareFaults T) : Program (SwitchState T) String Unit := do
  Program.modify fun s => { s with record := { state := .preparing, backupRoot := true } }
  putRecord faults.putPreparing
  let result ← Program.attempt (do switchRoot isEmpty faults; runRestored faults)
  match result with
  | .ok () => return ()
  | .error e => do
    let _ ← Program.attempt (rollback isEmpty faults.rollback)
    Program.throw e

structure CommitFaults (T : Type) where
  removeBackup : Fault
  leftover : Option T
  putCommitted : Fault

def removeBackup (faults : CommitFaults T) : Program (SwitchState T) String Unit := fun s =>
  match faults.removeBackup with
  | .none => .ok () { s with backup := none }
  | .fail => .error "remove committed filesystem backup" { s with backup := faults.leftover }
  | .crash => .crash { s with backup := faults.leftover }

def commit (faults : CommitFaults T) : Program (SwitchState T) String Unit := do
  let s ← Program.get
  match s.saved with
  | none => Program.throw "not found"
  | some record =>
    if record.state = .committed then return ()
    else if record.state ≠ .validated then Program.throw "restore is not validated"
    else do
      Program.onlyIf record.backupRoot (removeBackup faults)
      Program.modify fun s => { s with record := { record with state := .committed } }
      putRecord faults.putCommitted

def recover (alive : Bool) (rollbackFaults : RollbackFaults) (commitFaults : CommitFaults T) :
    Program (SwitchState T) String Unit := do
  let s ← Program.get
  match s.saved with
  | none => return ()
  | some record =>
    match record.state with
    | .preparing | .filesystemSwitched | .processRunning | .rollingBack => do
      Program.modify fun s => { s with record }
      rollback isEmpty rollbackFaults
    | .validated =>
      if alive then commit commitFaults
      else do
        Program.modify fun s => { s with record }
        rollback isEmpty rollbackFaults
    | .committed | .rolledBack => return ()

end Steps

end Shiftgate.Checkpoint
