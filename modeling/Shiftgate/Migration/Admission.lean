import Shiftgate.Migration.Orchestrator

/-! The admission of a migration: `Create` and `Preflight` of `internal/migration/orchestrator.go`,
up to the start of the run and to the first call of the destination. Both scan the migration records
in the order of their ids. -/

namespace Shiftgate.Admission

open Migration (Mode Stage)

structure Destination where
  machineID : String
  agentURL : String
  serverName : String
  route : String
  relayEndpoint : String
  relayTicket : String

inductive RequestMode where
  | unset
  | named (mode : Mode)
  | unsupported (name : String)

structure CreateRequest where
  workloadID : String
  idempotencyKey : String
  destination : Destination
  mode : RequestMode
  preCopyPasses : Int

structure Migration where
  id : String
  idempotencyKey : String
  workloadID : String
  destination : Destination
  mode : Mode
  stage : Stage
  preCopyPasses : Int

inductive AdmissionError where
  | idempotencyConflict
  | migrationAlreadyActive
  | other (text : String)
  deriving DecidableEq

inductive Status where
  | running
  | paused
  | other (name : String)

structure World where
  normalize : String → Except String String
  serverName : String → String → Except String String
  workload : String → Except String (String × Status)
  records : List Migration
  newID : Except String String
  put : Migration → Except String Unit

structure Checked where
  request : CreateRequest
  mode : Mode
  workload : String

def RequestMode.resolve : RequestMode → Except AdmissionError Mode
  | .unset => .ok .cold
  | .named mode => .ok mode
  | .unsupported name => .error (.other ("unsupported migration mode " ++ name.quote))

def Status.require : Status → Except AdmissionError Unit
  | .running | .paused => .ok ()
  | .other name => .error (.other ("workload must be running or paused, got " ++ name))

def World.check (w : World) (request : CreateRequest) : Except AdmissionError Checked := do
  let agentURL ← (w.normalize request.destination.agentURL).mapError .other
  let serverName ← (w.serverName agentURL request.destination.serverName).mapError .other
  let mode ← request.mode.resolve
  let (id, status) ← (w.workload request.workloadID).mapError .other
  status.require
  return ⟨{ request with destination := { request.destination with agentURL, serverName } },
    mode, id⟩

def destinationMatches (request stored : Destination) : Bool :=
  if request.agentURL ≠ stored.agentURL ∨ request.serverName ≠ stored.serverName ∨
      request.route ≠ stored.route ∨ request.relayEndpoint ≠ stored.relayEndpoint ∨
      request.relayTicket ≠ stored.relayTicket then false
  else if request.machineID ≠ "" ∧ stored.machineID ≠ "" ∧ request.machineID ≠ stored.machineID then
    false
  else true

namespace Checked

def sameKey (c : Checked) (m : Migration) : Bool :=
  c.request.idempotencyKey ≠ "" ∧ m.idempotencyKey = c.request.idempotencyKey

def differs (c : Checked) (m : Migration) : Bool :=
  m.workloadID ≠ c.request.workloadID ∨ !destinationMatches c.request.destination m.destination ∨
    m.mode ≠ c.mode ∨ m.preCopyPasses ≠ c.request.preCopyPasses

def createScan (c : Checked) : List Migration → Except AdmissionError (Option Migration)
  | [] => .ok none
  | m :: rest =>
    if m.workloadID ≠ c.request.workloadID ∧ !c.sameKey m then c.createScan rest
    else if c.sameKey m then
      if c.differs m then .error .idempotencyConflict else .ok (some m)
    else if !m.stage.terminal then .error .migrationAlreadyActive
    else c.createScan rest

def preflightScan (c : Checked) : List Migration → Except AdmissionError Unit
  | [] => .ok ()
  | m :: rest =>
    if c.sameKey m then
      if c.differs m then .error .idempotencyConflict else c.preflightScan rest
    else if m.workloadID = c.request.workloadID ∧ !m.stage.terminal then
      .error .migrationAlreadyActive
    else c.preflightScan rest

end Checked

open Checked

def World.create (w : World) (request : CreateRequest) : Except AdmissionError Migration :=
  if request.workloadID = "" then .error (.other "workload id is required")
  else do
    let c ← w.check request
    match ← c.createScan w.records with
    | some existing => return existing
    | none =>
      let id ← w.newID.mapError .other
      let m : Migration := ⟨id, c.request.idempotencyKey, c.workload, c.request.destination, c.mode,
        .created, c.request.preCopyPasses⟩
      (w.put m).mapError .other
      return m

/-- `inspect` is what follows the scan, and never returns the admission's two errors. -/
def World.preflight {α : Type} (w : World) (inspect : Checked → Except String α)
    (request : CreateRequest) : Except AdmissionError α := do
  let c ← w.check request
  c.preflightScan w.records
  (inspect c).mapError .other

def refusal {α : Type} : Except AdmissionError α → Option AdmissionError
  | .error .idempotencyConflict => some .idempotencyConflict
  | .error .migrationAlreadyActive => some .migrationAlreadyActive
  | _ => none

def Checked.refuses (c : Checked) (m : Migration) : Bool :=
  if c.sameKey m then c.differs m
  else m.workloadID = c.request.workloadID ∧ !m.stage.terminal

def Checked.refusesFirst (c : Checked) : List Migration → Bool
  | [] => false
  | m :: rest => c.refuses m || !c.sameKey m && c.refusesFirst rest

variable {α β : Type} {w : World} {request : CreateRequest} {c : Checked} {records : List Migration}

theorem refusal_other (x : Except String α) : refusal (x.mapError .other) = none := by
  cases x <;> rfl

theorem refusal_bind {x : Except AdmissionError α} {f : α → Except AdmissionError β}
    (hf : ∀ a, refusal (f a) = none) : refusal (x >>= f) = refusal x := by
  cases x with
  | ok a => exact hf a
  | error e => cases e <;> rfl

theorem refusal_check (w : World) (request : CreateRequest) : refusal (w.check request) = none := by
  refine (refusal_bind fun agentURL => ?_).trans (refusal_other _)
  refine (refusal_bind fun serverName => ?_).trans (refusal_other _)
  refine (refusal_bind fun mode => ?_).trans (by cases request.mode <;> rfl)
  refine (refusal_bind fun found => ?_).trans (refusal_other _)
  exact (refusal_bind fun _ => rfl).trans (by cases found.2 <;> rfl)

theorem refusal_preflightScan :
    (refusal (c.preflightScan records)).isSome = records.any c.refuses := by
  induction records with
  | nil => rfl
  | cons m rest ih =>
    simp only [preflightScan, List.any_cons, ← ih, refuses]
    split_ifs with hkey hdiffers hactive
    · simp [hdiffers, refusal]
    · simp [hdiffers]
    · simp [hactive, refusal]
    · rw [decide_eq_false hactive, Bool.false_or]

theorem refusal_createScan : refusal (c.createScan records) =
    if c.refusesFirst records then refusal (c.preflightScan records) else none := by
  induction records with
  | nil => rfl
  | cons m rest ih =>
    simp only [createScan, preflightScan, refusesFirst, refuses]
    by_cases hkey : c.sameKey m
    · by_cases hdiffers : c.differs m <;> simp [hkey, hdiffers, refusal]
    · by_cases hown : m.workloadID = c.request.workloadID
      · by_cases hterminal : m.stage.terminal = true
        · simp [hkey, hterminal, ih]
        · simp [hkey, hown, hterminal, refusal]
      · simp [hkey, hown, ih]

theorem refusal_create (h : w.check request = .ok c) (hnamed : request.workloadID ≠ "") :
    refusal (w.create request) = refusal (c.createScan w.records) := by
  unfold World.create
  rw [if_neg hnamed, h]
  refine (refusal_bind fun existing => ?_ : refusal (c.createScan w.records >>= _) = _)
  cases existing with
  | some => rfl
  | none =>
    refine (refusal_bind fun id => ?_).trans (refusal_other _)
    exact (refusal_bind fun _ => rfl).trans (refusal_other _)

/-- `Preflight` refuses what `Create` refuses if a refusing record is never behind one that replays
the request. -/
theorem preflight_refuses_as_create {inspect : Checked → Except String α} :
    refusal (w.preflight inspect request) = refusal (w.create request) ↔
      ∀ c, w.check request = .ok c → w.records.any c.refuses →
        request.workloadID ≠ "" ∧ c.refusesFirst w.records := by
  have hcheck := refusal_check w request
  cases hc : w.check request with
  | error e =>
    refine iff_of_true ?_ nofun
    unfold World.preflight World.create
    rw [hc] at hcheck ⊢
    cases e with
    | other text => split_ifs <;> rfl
    | _ => cases hcheck
  | ok c =>
    have hpreflight :
        refusal (w.preflight inspect request) = refusal (c.preflightScan w.records) := by
      unfold World.preflight
      rw [hc]
      exact refusal_bind fun _ => refusal_other _
    rw [hpreflight]
    simp only [Except.ok.injEq, forall_eq', ← refusal_preflightScan]
    by_cases hnamed : request.workloadID = ""
    · simp [World.create, hnamed, refusal]
    · rw [refusal_create hc hnamed, refusal_createScan]
      split_ifs with hfirst <;> simp [hnamed, hfirst]

/-- The replayed record is completed, and a second migration is under way. -/
theorem preflight_refuses_a_replay :
    let destination : Destination := ⟨"", "https://b:8443", "b", "", "", ""⟩
    let w : World :=
      { normalize := .ok, serverName := fun _ name => .ok name
        workload := fun id => .ok (id, .running)
        records := [⟨"m1", "key", "w", destination, .cold, .completed, 0⟩,
          ⟨"m2", "", "w", destination, .cold, .transfer, 0⟩]
        newID := .ok "m3", put := fun _ => .ok () }
    let request : CreateRequest := ⟨"w", "key", destination, .unset, 0⟩
    refusal (w.preflight (fun _ => .ok ()) request) = some .migrationAlreadyActive ∧
      (w.create request).map (·.id) = .ok "m1" := by
  decide

end Shiftgate.Admission
