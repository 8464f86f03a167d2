import Shiftgate.Library.Runs

/-! One fork (`internal/checkpoint/fork.go`) as the steps at which it can fail or be cut off by a
crash. Somebody else can make a directory at the root's path at any time. The staging directory
stands beside the root, so putting the tree in place is a rename. -/

namespace Shiftgate.Checkpoint.Forks

open Library

inductive ForkState where
  | preparing
  | materialized
  | activating
  | running
  | committed
  | rollingBack
  | rolledBack
  | failed
  deriving DecidableEq

def canTransitionFork : ForkState → ForkState → Bool
  | .preparing, .materialized | .preparing, .rollingBack | .preparing, .failed => true
  | .materialized, .activating | .materialized, .committed | .materialized, .rollingBack
  | .materialized, .failed => true
  | .activating, .running | .activating, .rollingBack | .activating, .failed => true
  | .running, .committed | .running, .rollingBack | .running, .failed => true
  | .rollingBack, .rolledBack | .rollingBack, .failed => true
  | .failed, .rollingBack => true
  | _, _ => false

/-- What a fork stores; `forkCheckpoint`: `ForkCheckpointID` is set. -/
structure ForkRecord where
  state : ForkState
  createdWorkload : Bool
  forkCheckpoint : Bool

inductive Directory where
  | forked
  | foreign (empty : Bool)
  deriving DecidableEq

/-- The runtime's record under the new id: whether the fork created it, and whether it names the
restored process. -/
structure Workload where
  forked : Bool
  process : Bool

/-- How a step ends. `half` is a step that does its first part only. -/
inductive Result where
  | ok
  | half
  | fail
  deriving DecidableEq

inductive ForkPoint where
  | putRecord
  | extract
  | lstat
  | materializeRoot
  | syncDir
  | prepareRestore
  | putCreated
  | captureFork
  | putCheckpoint (mirrored : Bool)
  | markCheckpoint
  | toMaterialized
  | toActivating
  | criuRestore
  | adoptRestored
  | resume
  | toRunning
  | validate
  | publish
  | commit
  deriving DecidableEq

inductive RollbackPoint where
  | putRollingBack
  | stop
  | deleteWorkload
  | deleteCheckpoint
  | removeRoot
  | putRolledBack
  deriving DecidableEq

inductive Task where
  | fork (activate : Bool) (point : ForkPoint) (record : ForkRecord)
  | rollback (point : RollbackPoint) (record : ForkRecord)

/-- `tree` is whether the restored process is alive, `checkpoint` whether the repository has the
fork's. `removed` and `deleted` log what a rollback has removed: directories, and records with
whether the fork had created them. -/
structure World where
  root : Option Directory
  workload : Option Workload
  tree : Bool
  checkpoint : Bool
  saved : Option ForkRecord
  task : Option Task
  removed : List Directory
  deleted : List Bool

namespace World

def put (w : World) (record : ForkRecord) : World := { w with saved := some record }

def next (w : World) (activate : Bool) (point : ForkPoint) (record : ForkRecord) : World :=
  { w with task := some (.fork activate point record) }

def unwind (w : World) (record : ForkRecord) : World :=
  { w with task := some (.rollback .putRollingBack record) }

def done (w : World) : World := { w with task := none }

def endProcess (w : World) : World := { w with tree := false }

def occupy (w : World) (empty : Bool) : World := { w with root := some (.foreign empty) }

def alive (w : World) : Bool := w.tree && (w.workload.map (·.process)).getD false

end World

def transition (w : World) (record : ForkRecord) (target : ForkState) (result : Result)
    (next : World → ForkRecord → World) : World :=
  if record.state ≠ target ∧ canTransitionFork record.state target = false then w.unwind record
  else if result = .ok then
    next (w.put { record with state := target }) { record with state := target }
  else w.unwind { record with state := target }

def forkStep (w : World) (activate : Bool) (r : ForkRecord) (result : Result) : ForkPoint → World
  | .putRecord => if result = .ok then (w.put r).next activate .extract r else w.done
  | .extract => if result = .ok then w.next activate .lstat r else w.unwind r
  | .lstat =>
    if result = .ok ∧ w.root = none then w.next activate .materializeRoot r else w.unwind r
  | .materializeRoot =>
    -- The rename replaces an empty directory and fails on any other.
    if result = .ok ∧ (w.root = none ∨ w.root = some (.foreign true)) then
      { w with root := some .forked }.next activate .syncDir r
    else w.unwind r
  | .syncDir => if result = .ok then w.next activate .prepareRestore r else w.unwind r
  | .prepareRestore =>
    if result = .ok then
      match w.workload with
      | none =>
        { w with workload := some ⟨true, false⟩ }.next activate .putCreated
          { r with createdWorkload := true }
      | some _ => w.next activate .putCreated { r with createdWorkload := false }
    else w.unwind r
  | .putCreated => if result = .ok then (w.put r).next activate .captureFork r else w.unwind r
  | .captureFork =>
    -- Half is a checkpoint that is saved and not mirrored.
    if result = .fail then w.unwind r
    else { w with checkpoint := true }.next activate (.putCheckpoint (result == Result.ok))
      { r with forkCheckpoint := true }
  | .putCheckpoint mirrored =>
    if result = .ok then
      if mirrored then (w.put r).next activate .markCheckpoint r else (w.put r).unwind r
    else w.unwind r
  | .markCheckpoint =>
    if result = .ok ∧ w.workload.isSome then w.next activate .toMaterialized r else w.unwind r
  | .toMaterialized =>
    transition w r .materialized result fun w r =>
      w.next activate (if activate then .toActivating else .commit) r
  | .toActivating => transition w r .activating result fun w r => w.next activate .criuRestore r
  | .criuRestore =>
    if result = .ok then { w with tree := true }.next activate .adoptRestored r else w.unwind r
  | .adoptRestored =>
    match result, w.workload with
    | .ok, some x =>
      { w with workload := some { x with process := true } }.next activate .resume r
    | _, _ => w.endProcess.unwind r
  | .resume => if result = .ok ∧ w.alive then w.next activate .toRunning r else w.unwind r
  | .toRunning => transition w r .running result fun w r => w.next activate .validate r
  | .validate => if result = .ok ∧ w.alive then w.next activate .publish r else w.unwind r
  | .publish => if result = .ok then w.next activate .commit r else w.unwind r
  | .commit => transition w r .committed result fun w _ => w.done

def rollbackStep (w : World) (r : ForkRecord) (result : Result) : RollbackPoint → World
  | .putRollingBack =>
    let r := { r with state := .rollingBack }
    let w := if result = .ok then w.put r else w
    { w with task := some (.rollback .stop r) }
  | .stop =>
    let w := { w with task := some (.rollback .deleteWorkload r) }
    match w.workload with
    | some ⟨forked, true⟩ =>
      match result with
      | .ok => { w with tree := false, workload := some ⟨forked, false⟩ }
      | .half => { w with tree := false }
      | .fail => w
    | _ => w
  | .deleteWorkload =>
    let w := { w with task := some (.rollback .deleteCheckpoint r) }
    match w.workload with
    | some x =>
      if r.createdWorkload ∧ result = .ok ∧ w.alive = false then
        { w with workload := none, deleted := x.forked :: w.deleted }
      else w
    | none => w
  | .deleteCheckpoint =>
    if r.forkCheckpoint then
      if w.checkpoint = false ∨ result = .fail then w.done
      else if result = .half then { w with checkpoint := false }.done
      else { w with checkpoint := false, task := some (.rollback .removeRoot r) }
    else { w with task := some (.rollback .removeRoot r) }
  | .removeRoot =>
    if result = .ok then
      { w with
        root := none
        removed := w.root.toList ++ w.removed
        task := some (.rollback .putRolledBack r) }
    else w.done
  | .putRolledBack =>
    if result = .ok then (w.put { r with state := .rolledBack }).done else w.done

def recover (w : World) : World :=
  match w.saved with
  | none => w.done
  | some r =>
    match r.state with
    | .preparing | .materialized | .activating | .rollingBack => w.unwind r
    | .running => if w.alive then w.done else w.unwind r
    | .committed | .rolledBack | .failed => w.done

/-- The runtime forgets a dead process (`Reconcile`), and the forker recovers. -/
def restart (w : World) : World :=
  recover { w with workload := w.workload.map fun x => { x with process := x.process && w.tree } }

/-- `appear` is a directory that somebody else makes at the root's path, `exit` the end of the
restored process. -/
inductive Action where
  | request (activate : Bool)
  | advance (result : Result)
  | restart
  | appear (empty : Bool)
  | exit

def step (w : World) : Action → Option World
  | .request activate =>
    if w.task = none ∧ w.saved = none then
      if w.root = none then some (w.next activate .putRecord ⟨.preparing, false, false⟩) else some w
    else none
  | .advance result =>
    match w.task with
    | none => none
    | some (.fork activate point r) => some (forkStep w activate r result point)
    | some (.rollback point r) => some (rollbackStep w r result point)
  | .restart => some (restart w)
  | .appear empty => if w.root = none then some (w.occupy empty) else none
  | .exit => some w.endProcess

def initial (root : Option Bool) (workload : Bool) : World where
  root := root.map .foreign
  workload := if workload then some ⟨false, false⟩ else none
  tree := false
  checkpoint := false
  saved := none
  task := none
  removed := []
  deleted := []

end Shiftgate.Checkpoint.Forks
