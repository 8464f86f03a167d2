import Mathlib.Data.List.AList
import Shiftgate.Library.Requests
import Shiftgate.Library.Runs

/-! The failover replicator of a source agent (`internal/agent/replicate.go`) and the standbys it
pushes to. Requests may be served late, answers lost, ledger writes fail, and the agent crash
between any two steps. -/

namespace Shiftgate.Failover.Replication

open Library

def replicationRetryDelay : Nat := 30

/-- The policy is the `AgentURL` of the workload's standby. -/
structure Workload where
  id : String
  name : String
  failoverPolicy : Option String

structure ReplicationEntry where
  workloadID : String
  standbyURL : String
  lastCheckpointID : String
  lastError : Option Nat

abbrev Ledger := AList fun _ : String => ReplicationEntry

def Ledger.put (entry : ReplicationEntry) (ledger : Ledger) : Ledger :=
  ledger.insert entry.workloadID entry

def Ledger.delete (workload : String) (ledger : Ledger) : Ledger := ledger.erase workload

def ReplicationEntry.backedOff (entry : ReplicationEntry) (now : Nat) : Bool :=
  entry.lastError.any fun failedAt => now ≤ failedAt + replicationRetryDelay

def ReplicationEntry.failed (entry : ReplicationEntry) (now : Nat) : ReplicationEntry :=
  { entry with lastError := some now }

structure Duty where
  source : String
  failedOver : Bool
  deriving DecidableEq

inductive Call where
  | hold (workload url : String)
  | confirm (url : String) (session : Nat)
  | withdraw (workload url : String)

inductive Reply where
  | ok
  | refused
  deriving DecidableEq

/-- `lands` says that the write of the duty record took effect, `held` that the session was left in
the HELD state. -/
inductive Served where
  | done (lands held : Bool)
  | refuse

def replicationHeld (source : String) : Option Duty → Option Duty
  | some duty => some (if duty.failedOver then duty else { duty with source })
  | none => some ⟨source, false⟩

def replicationWithdrawn (source : String) : Option Duty → Option Duty
  | some duty => if duty.source ≠ source ∨ duty.failedOver then some duty else none
  | none => none

/-- The entry that a failure is recorded on, and whether the hold was sent. -/
structure Push where
  workload : String
  url : String
  checkpoint : String
  entry : ReplicationEntry
  sent : Bool

def Push.done (push : Push) : ReplicationEntry := ⟨push.workload, push.url, push.checkpoint, none⟩

inductive Point where
  | idle
  | withdrawals (rest : List ReplicationEntry)
  | withdrawing (entry : ReplicationEntry) (rest : List ReplicationEntry) (request : Nat)
  | refused (entry : ReplicationEntry) (rest : List ReplicationEntry)
  | withdrawn (entry : ReplicationEntry) (rest : List ReplicationEntry)
  | pushes (rest : List Workload)
  | pushing (push : Push) (rest : List Workload)
  | holding (push : Push) (rest : List Workload) (request : Nat)
  | confirming (push : Push) (rest : List Workload) (request : Nat)
  | recording (push : Push) (rest : List Workload)
  | failing (push : Push) (rest : List Workload)

inductive Written where
  | ok
  | lost
  | landed
  deriving DecidableEq

/-- `ok` says that the calls before the hold succeed, `root` is the newest root checkpoint. -/
structure Choice where
  ok : Bool
  migrationInFlight : Bool
  root : Option String
  write : Written

structure System where
  now : Nat
  workloads : List Workload
  ledger : Ledger
  stored : Ledger
  duties : String → String → Option Duty
  held : List Nat
  requests : Requests Call Reply
  point : Point

inductive Action where
  | tick (seconds : Nat)
  | setFailoverPolicy (workload : String) (policy : Option String)
  | create (workload : Workload)
  | delete (workload : String)
  | step (choice : Choice)
  | answer
  | giveUp
  | serve (request : Nat) (served : Served)
  | compact
  | crash
  | failOver (url workload : String)
  | otherHold (url workload source : String)
  | drop (url workload : String)

namespace System

def workload (s : System) (id : String) : Option Workload := s.workloads.find? (·.id = id)

def get (s : System) (idOrName : String) : Option Workload :=
  (s.workload idOrName).or (s.workloads.find? (·.name = idOrName))

def policyOf (s : System) (id : String) : Option String := (s.workload id).bind (·.failoverPolicy)

def stale (s : System) (entry : ReplicationEntry) : Bool :=
  match s.get entry.workloadID with
  | none => true
  | some w => w.failoverPolicy ≠ some entry.standbyURL

def goto (s : System) (point : Point) : System := { s with point }

def ask (s : System) (call : Call) (wait : Nat → Point) : System :=
  { s with requests := s.requests.send call, point := wait s.requests.length }

def writeLedger (s : System) (write : Written) (f : Ledger → Ledger) : System :=
  match write with
  | .ok => { s with ledger := f s.ledger, stored := f s.stored }
  | .landed => { s with stored := f s.stored }
  | .lost => s

def due (s : System) (w : Workload) (choice : Choice) : Option Push :=
  match w.failoverPolicy, choice.root with
  | some url, some root =>
    if choice.migrationInFlight then none
    else
      match s.ledger.lookup w.id with
      | some entry =>
        if entry.standbyURL = url ∧ entry.lastCheckpointID = root then none
        else if entry.standbyURL ≠ url then none
        else if entry.backedOff s.now then none
        else some ⟨w.id, url, root, { entry with workloadID := w.id, standbyURL := url }, false⟩
      | none => some ⟨w.id, url, root, ⟨w.id, url, "", none⟩, false⟩
  | _, _ => none

def advance (s : System) (choice : Choice) : Option System :=
  match s.point with
  | .idle => some (s.goto (.withdrawals (s.ledger.entries.map (·.2))))
  | .withdrawals [] => some (s.goto (.pushes s.workloads))
  | .withdrawals (entry :: rest) =>
    if s.stale entry = false ∨ entry.backedOff s.now then some (s.goto (.withdrawals rest))
    else if choice.ok = false then some (s.goto (.refused entry rest))
    else some (s.ask (.withdraw entry.workloadID entry.standbyURL) (.withdrawing entry rest))
  | .refused entry rest =>
    some ((s.writeLedger choice.write (Ledger.put (entry.failed s.now))).goto (.withdrawals rest))
  | .withdrawn entry rest =>
    some ((s.writeLedger choice.write (Ledger.delete entry.workloadID)).goto (.withdrawals rest))
  | .pushes [] => some (s.goto .idle)
  | .pushes (w :: rest) =>
    match s.due w choice with
    | none => some (s.goto (.pushes rest))
    | some push => some (s.goto (.pushing push rest))
  | .pushing push rest =>
    if choice.ok then
      some (s.ask (.hold push.workload push.url) (.holding { push with sent := true } rest))
    else some (s.goto (.failing push rest))
  | .recording push rest =>
    some ((s.writeLedger choice.write (Ledger.put push.done)).goto
      (if choice.write = .ok then .pushes rest else .failing push rest))
  | .failing push rest =>
    some ((s.writeLedger choice.write (Ledger.put (push.entry.failed s.now))).goto (.pushes rest))
  | .withdrawing _ _ _ | .holding _ _ _ | .confirming _ _ _ => none

def waitsFor (s : System) : Option Nat :=
  match s.point with
  | .withdrawing _ _ k | .holding _ _ k | .confirming _ _ k => some k
  | _ => none

def answered (s : System) (reply : Reply) : Option System :=
  match s.point with
  | .withdrawing entry rest _ =>
    some (s.goto (if reply = .ok then .withdrawn entry rest else .refused entry rest))
  | .holding push rest k =>
    if reply = .ok then some (s.ask (.confirm push.url k) (.confirming push rest))
    else some (s.goto (.failing push rest))
  | .confirming push rest _ =>
    some (s.goto (if reply = .ok then .recording push rest else .failing push rest))
  | _ => none

def setDuty (s : System) (url workload : String) (duty : Option Duty) : System :=
  { s with duties := fun u w => if u = url ∧ w = workload then duty else s.duties u w }

/-- A withdrawal is acknowledged whatever becomes of the duty record. -/
def serveCall (machine : String) (s : System) (k : Nat) (lands held : Bool) : Call → System
  | .hold workload url =>
    { s.setDuty url workload
        (if lands then replicationHeld machine (s.duties url workload) else s.duties url workload)
      with held := if held then k :: s.held else s.held
           requests := s.requests.answer k .ok }
  | .confirm _ session =>
    { s with requests := s.requests.answer k (if session ∈ s.held then .ok else .refused) }
  | .withdraw workload url =>
    { s.setDuty url workload
        (if lands then replicationWithdrawn machine (s.duties url workload)
          else s.duties url workload)
      with requests := s.requests.answer k .ok }

def step (machine : String) (s : System) : Action → Option System
  | .tick seconds => some { s with now := s.now + seconds }
  | .setFailoverPolicy id policy =>
    some { s with workloads := s.workloads.map fun w =>
      if w.id = id then { w with failoverPolicy := policy } else w }
  | .create w =>
    if (s.workload w.id).isSome then none else some { s with workloads := s.workloads ++ [w] }
  | .delete id => some { s with workloads := s.workloads.filter (·.id ≠ id) }
  | .step choice => s.advance choice
  | .answer => (s.waitsFor.bind s.requests.reply).bind s.answered
  | .giveUp => s.waitsFor.bind fun _ => s.answered .refused
  | .serve k served => (s.requests.pending k).map fun call =>
      match served with
      | .done lands held => s.serveCall machine k lands held call
      | .refuse => { s with requests := s.requests.answer k .refused }
  | .compact => some { s with stored := s.ledger }
  | .crash => some { s with ledger := s.stored, point := .idle }
  | .failOver url w =>
    some (s.setDuty url w ((s.duties url w).map fun duty => { duty with failedOver := true }))
  | .otherHold url w source =>
    if source = machine then none
    else some (s.setDuty url w (replicationHeld source (s.duties url w)))
  | .drop url w => some (s.setDuty url w none)

def initial (workloads : List Workload) : System where
  now := 0
  workloads
  ledger := ∅
  stored := ∅
  duties := fun _ _ => none
  held := []
  requests := []
  point := .idle

end System

end Shiftgate.Failover.Replication
