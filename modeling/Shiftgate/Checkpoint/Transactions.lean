import Shiftgate.Checkpoint.Switch

/-! The restore transactions of one target root (`internal/checkpoint/restore.go`) at the level of
their records: `Prepare`, `Commit`, `Rollback` and `Recover` as the steps between which another
request can act. -/

namespace Shiftgate.Checkpoint

/-- Restores are named by their place in `records`. `process` is the runtime's live process with the
restore it came from; `orphans` are trees that the runtime does not know. -/
structure Restores where
  records : List RestoreState := []
  inFlight : Bool := false
  process : Option Nat := none
  orphans : List Nat := []
  deriving DecidableEq

namespace Restores

def setRecord (r : Restores) (id : Nat) (state : RestoreState) : Restores :=
  { r with records := r.records.set id state }

def endRestore (r : Restores) : Restores := { r with inFlight := false }

def stopProcess (r : Restores) : Restores := { r with process := none }

def beginRestore (r : Restores) : Restores :=
  { r with inFlight := true, records := r.records ++ [.preparing] }

def restoreTree (r : Restores) (id : Nat) : Restores := { r with orphans := id :: r.orphans }

def killTree (r : Restores) (id : Nat) : Restores := { r with orphans := r.orphans.erase id }

def adoptTree (r : Restores) (id : Nat) : Restores :=
  { r with orphans := r.orphans.erase id, process := some id }

end Restores

inductive PreparePoint where
  | admission
  | recorded (id : Nat)
  | switched (id : Nat)
  | tree (id : Nat)
  | adopted (id : Nat)
  | running (id : Nat)
  deriving DecidableEq

inductive PrepareNext where
  | next (point : PreparePoint)
  | refused
  | unwind (id : Nat)
  | prepared (id : Nat)

def prepareStep (r : Restores) (ok : Bool) : PreparePoint → Option (Restores × PrepareNext)
  | .admission =>
    if ok then
      if r.inFlight then none
      else some (r.beginRestore, .next (.recorded r.records.length))
    else some (r, .refused)
  | .recorded id =>
    if ok then some (r.setRecord id .filesystemSwitched, .next (.switched id))
    else some (r, .unwind id)
  | .switched id =>
    if ok then
      if r.process.isSome then none else some (r.restoreTree id, .next (.tree id))
    else some (r, .unwind id)
  | .tree id =>
    if ok then some (r.adoptTree id, .next (.adopted id)) else some (r.killTree id, .unwind id)
  | .adopted id =>
    if ok then some (r.setRecord id .processRunning, .next (.running id))
    else some (r, .unwind id)
  | .running id =>
    if ok then some (r.setRecord id .validated, .prepared id) else some (r, .unwind id)

inductive RollbackPoint where
  | read (id : Nat)
  | begin (id : Nat)
  | stop (id : Nat)
  | finish (id : Nat)
  deriving DecidableEq

def RollbackPoint.id : RollbackPoint → Nat
  | .read id | .begin id | .stop id | .finish id => id

inductive RollbackNext where
  | next (point : RollbackPoint)
  | returned (ok : Bool)

def rollbackStep (r : Restores) (ok : Bool) : RollbackPoint → Restores × RollbackNext
  | .read id =>
    match r.records[id]? with
    | none => (r, .returned false)
    | some .rolledBack => (r, .returned true)
    | some .committed => (r, .returned false)
    | some _ => (r, .next (.begin id))
  | .begin id => (r.setRecord id .rollingBack, .next (.stop id))
  | .stop id => (r.stopProcess, .next (.finish id))
  | .finish id =>
    if ok then ((r.setRecord id .rolledBack).endRestore, .returned true)
    else (r.endRestore, .returned false)

inductive CommitPoint where
  | read (id : Nat)
  | write (id : Nat)
  deriving DecidableEq

inductive CommitNext where
  | next (point : CommitPoint)
  | returned (ok : Bool)

def commitStep (r : Restores) (ok : Bool) : CommitPoint → Restores × CommitNext
  | .read id =>
    match r.records[id]? with
    | some .committed => (r.endRestore, .returned true)
    | some .validated => (r, .next (.write id))
    | _ => (r, .returned false)
  | .write id =>
    if ok then ((r.setRecord id .committed).endRestore, .returned true)
    else (r, .returned false)

inductive RecoverOutcome where
  | complete
  | stopped
  | cut
  deriving DecidableEq

def recoverRollback (r : Restores) (id : Nat) : RecoverOutcome → Restores
  | .complete => (r.setRecord id .rolledBack).stopProcess
  | .stopped => (r.setRecord id .rollingBack).stopProcess
  | .cut => r.setRecord id .rollingBack

def recoverRecord (r : Restores) (id : Nat) (outcome : RecoverOutcome) : Restores :=
  match r.records[id]? with
  | some .preparing | some .filesystemSwitched | some .processRunning | some .rollingBack =>
    recoverRollback r id outcome
  | some .validated =>
    if r.process.isSome then
      if outcome = .complete then r.setRecord id .committed else r
    else recoverRollback r id outcome
  | _ => r

def Restores.recovered (r : Restores) : Bool :=
  r.records.all fun state => state = .committed || state = .rolledBack

end Shiftgate.Checkpoint
