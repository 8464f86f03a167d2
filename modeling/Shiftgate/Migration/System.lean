import Shiftgate.Migration.Custody
import Shiftgate.Transfer.SettledRuns

/-! One migration as a whole: the source, the destination and the requests between them. A call is
sent up to four times, each attempt arrives once or never and at any time. Either agent can restart
at any point. -/

namespace Shiftgate.Migration

open Library Checkpoint Transfer

structure Attempt where
  request : Request
  task : Option Nat := none

structure System where
  source : Source
  destination : Destination
  attempts : List Attempt := []
  /-- The attempt whose answer the client waits for. -/
  waiting : Option Nat := none
  /-- How often the call in progress has been sent. -/
  sent : Nat := 0

def retryableStatus (status : Nat) : Bool :=
  status = 500 || status = 502 || status = 503 || status = 504 || status = 429

/-- Nothing if the client tries again, and `ErrTransferNotFound` for every 404. -/
def decode : Answer → Option Reply
  | .session s => some (.session s.state)
  | .restore _ | .missing => some .done
  | .error status _ =>
    if retryableStatus status then none
    else if status = 404 then some .notFound
    else some .failed
  | .lost => none

def Call.sends (machine : String) : Call → Request → Bool
  | .reserve, .reserve r => r.sourceMachineID = machine && r.purpose = ""
  | .importKey, .importKey .. => true
  | .verify, .verify => true
  | .restore, .restore => true
  | .get, .get => true
  | .commit, .commit => true
  | .rollback, .rollback => true
  | .getCleanup, .getCleanup => true
  | _, _ => false

def Source.uploads (s : Source) : Request → Bool
  | .importChunk .. =>
    match s.control with
    | .running (.uploadPasses :: _) _ | .running (.transferRounds :: _) _ => true
    | _ => false
  | .importManifest _ =>
    match s.control with
    | .running (.transferRounds :: _) _ => true
    | _ => false
  | _ => false

namespace System

def answered (s : System) : Option Answer := do
  let attempt ← s.attempts[← s.waiting]?
  let task ← s.destination.tasks[← attempt.task]?
  match task.point with
  | .done answer => some answer
  | _ => none

inductive Action where
  | source (e : Source.Event)
  | send (request : Request)
  | arrive (attempt : Nat)
  /-- The connection fails, or the response says to try again. -/
  | lose
  /-- The call returns with the answer, or without one. -/
  | answer (cancelled : Bool)
  | giveUp (cancelled : Bool)
  | destination (a : Transfer.Action)

def reply (s : System) (r : Reply) (cancelled : Bool) : Option System :=
  (s.source.step (.reply r cancelled)).map fun source =>
    { s with source, waiting := none, sent := 0 }

def step (machine : String) (s : System) : Action → Option System
  | .source (.reply ..) => none
  | .source .crash => some { s with source := s.source.goto .down, waiting := none, sent := 0 }
  | .source e => (s.source.step e).map fun source => { s with source }
  | .send request =>
    if s.source.uploads request then some { s with attempts := s.attempts ++ [{ request }] }
    else
      match s.source.pending with
      | none => none
      | some c =>
        if c.sends machine request ∧ s.waiting = none ∧ s.sent < 4 then
          some { s with attempts := s.attempts ++ [{ request }]
                        waiting := some s.attempts.length, sent := s.sent + 1 }
        else none
  | .arrive k =>
    match s.attempts[k]? with
    | some { request, task := none } =>
      (s.destination.step (.start machine request)).map fun destination =>
        { s with destination
                 attempts := s.attempts.set k { request, task := some s.destination.tasks.length } }
    | _ => none
  | .lose => if s.waiting.isSome then some { s with waiting := none } else none
  | .answer cancelled => (s.answered.bind decode).bind fun r => s.reply r cancelled
  | .giveUp cancelled => if s.source.pending.isSome then s.reply .failed cancelled else none
  | .destination (.start ..) => none
  | .destination a => (s.destination.step a).map fun destination => { s with destination }

def initial (mode : Mode) (paused standby : Bool) : System where
  source := if paused then .admittedPaused mode else .admitted mode
  destination := .initial standby

def ownSteps (n : Nat) : List Action := List.replicate n (.source (.step true false))

def serves (k n : Nat) : List Action := List.replicate n (.destination (.advance k .ok))

def calls (k : Nat) (request : Request) (n : Nat) : List Action :=
  [.send request, .arrive k] ++ serves k n ++ [.answer false]

def toRestore : List Action :=
  ownSteps 19 ++ calls 0 (.reserve (reservationFor none)) 0 ++ ownSteps 1 ++
  calls 1 (.importKey "workload" 1) 1 ++ ownSteps 1 ++
  [.send (.importManifest sampleManifest), .arrive 2] ++ serves 2 1 ++ ownSteps 3 ++
  calls 3 .verify 1 ++ ownSteps 1

def toCommit : List Action :=
  toRestore ++ calls 4 .restore 7 ++ ownSteps 1 ++ calls 5 .get 0 ++ ownSteps 2

end System

end Shiftgate.Migration
