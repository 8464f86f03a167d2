import Shiftgate.Jobs.Row
import Shiftgate.Library.Runs

/-! The Kubernetes controller for one `ShiftMigration` (`integrations/kubernetes`). The status of
the object is its only memory: written after the migration was created, and refused when the object
has changed since it was read. -/

namespace Shiftgate.Kubernetes

open Library Jobs List Option

structure MigrationSpec where
  workloadID : String
  sourceMachineID : String
  destinationMachineID : String
  mode : String
  deriving DecidableEq

def validateSpec (spec : MigrationSpec) : Bool :=
  spec.workloadID ≠ "" && spec.sourceMachineID ≠ "" && spec.destinationMachineID ≠ "" &&
    spec.mode ∈ ["", "cold", "live"]

inductive Phase where
  | none
  | running
  | completed
  | failed
  | rejected
  deriving DecidableEq

/-- `observedGeneration` of an empty status is `-1`; here it is the phase that tells. -/
structure Status where
  phase : Phase
  observedGeneration : Nat
  operationID : Option Nat
  deriving DecidableEq

structure Object where
  generation : Nat
  resourceVersion : Nat
  spec : MigrationSpec
  finalizer : Bool
  deleted : Bool
  status : Status
  deriving DecidableEq

structure Migration where
  generation : Nat
  spec : MigrationSpec
  status : JobStatus
  cancelAccepted : Bool

def Migration.terminal (m : Migration) : Bool := !m.status.active

inductive Pass where
  | idle
  | addFinalizer (o : Object)
  | create (o : Object)
  | lookup (o : Object) (operationID : Nat)
  | update (o : Object) (status : Status)
  | cancel (o : Object) (operationID : Nat)
  | confirm (o : Object) (operationID : Nat)
  | removeFinalizer (o : Object)
  deriving DecidableEq

def Object.proceed (o : Object) : Pass :=
  let settled := o.status.phase ∈ [.completed, .failed, .rejected]
  if settled ∧ o.status.observedGeneration = o.generation then .idle
  else if settled then .create o
  else match o.status.operationID with
    | some operationID => .lookup o operationID
    | none => .create o

def Object.reconcileOne (o : Object) : Pass :=
  if o.deleted then
    match o.status.operationID with
    | some operationID => .cancel o operationID
    | none => .removeFinalizer o
  else if validateSpec o.spec = false then .update o ⟨.rejected, o.generation, none⟩
  else if o.finalizer then o.proceed
  else .addFinalizer o

/-- A request succeeds, fails without effect, or has its effect and the answer is lost. -/
inductive Outcome where
  | ok
  | failed
  | lost
  deriving DecidableEq

structure World where
  object : Object
  gone : Bool
  migrations : List Migration
  pass : Pass

def World.put (w : World) (o : Object) (outcome : Outcome) (f : Object → Object) : World :=
  if w.gone = true ∨ o.resourceVersion ≠ w.object.resourceVersion ∨ outcome = .failed then w
  else { w with object := { f w.object with resourceVersion := w.object.resourceVersion + 1 } }

def World.createMigration (w : World) (o : Object) : List Migration × Nat :=
  match w.migrations.findIdx? (·.generation = o.generation) with
  | some operationID => (w.migrations, operationID)
  | none => (w.migrations ++ [⟨o.generation, o.spec, .queued, false⟩], w.migrations.length)

def observed (o : Object) (operationID : Nat) : JobStatus → Status
  | .completed => ⟨.completed, o.generation, some operationID⟩
  | .failed | .cancelled => ⟨.failed, o.generation, some operationID⟩
  | .queued | .running => ⟨.running, o.generation, some operationID⟩

def World.request (w : World) (outcome : Outcome) : World :=
  match w.pass with
  | .idle => w
  | .addFinalizer o =>
    let refused := w.gone = true ∨ o.resourceVersion ≠ w.object.resourceVersion
    { w.put o outcome ({ · with finalizer := true }) with
      pass := if refused ∨ outcome ≠ .ok then .idle else o.proceed }
  | .create o =>
    match outcome with
    | .failed => { w with pass := .update o ⟨.failed, o.generation, none⟩ }
    | .lost => { w with
        migrations := (w.createMigration o).1, pass := .update o ⟨.failed, o.generation, none⟩ }
    | .ok => { w with
        migrations := (w.createMigration o).1
        pass := .update o ⟨.running, o.generation, some (w.createMigration o).2⟩ }
  | .lookup o operationID =>
    match outcome, w.migrations[operationID]? with
    | .ok, some m => { w with pass := .update o (observed o operationID m.status) }
    | _, _ => { w with pass := .idle }
  | .update o status => { w.put o outcome ({ · with status }) with pass := .idle }
  | .cancel o operationID => { w with
      migrations := if outcome = .failed then w.migrations
        else w.migrations.modify operationID ({ · with cancelAccepted := true })
      pass := if outcome = .ok then .removeFinalizer o else .confirm o operationID }
  | .confirm o operationID => { w with
      pass := if outcome = .ok ∧ (w.migrations[operationID]?).any (·.terminal) then
        .removeFinalizer o else .idle }
  | .removeFinalizer o =>
    let next := w.put o outcome ({ · with finalizer := false })
    { next with
      gone := next.gone || (next.object.deleted && !next.object.finalizer)
      pass := .idle }

/-- `touch` is any other change of the object, `progress` the control plane's work. -/
inductive Action where
  | reconcile
  | request (outcome : Outcome)
  | restart
  | edit (spec : MigrationSpec)
  | delete
  | touch
  | progress (operationID : Nat) (status : JobStatus)

def World.step (w : World) : Action → Option World
  | .reconcile =>
    if w.gone ∨ w.pass ≠ .idle then none else some { w with pass := w.object.reconcileOne }
  | .request outcome => some (w.request outcome)
  | .restart => some { w with pass := .idle }
  | .edit spec =>
    if w.gone then none
    else some { w with object := { w.object with
      spec, generation := w.object.generation + 1
      resourceVersion := w.object.resourceVersion + 1 } }
  | .delete =>
    if w.gone then none
    else some { w with
      object := { w.object with
        deleted := true, resourceVersion := w.object.resourceVersion + 1 }
      gone := !w.object.finalizer }
  | .touch =>
    some { w with object := { w.object with
      resourceVersion := w.object.resourceVersion + 1 } }
  | .progress operationID status =>
    some { w with migrations := w.migrations.modify operationID fun m =>
      if m.terminal then m else { m with status } }

def World.initial (spec : MigrationSpec) : World :=
  ⟨⟨1, 0, spec, false, false, ⟨.none, 0, none⟩⟩, false, [], .idle⟩

def World.Reports (w : World) : Prop :=
  w.object.status.phase = .completed → ∃ m ∈ w.migrations,
    m.generation = w.object.status.observedGeneration ∧ m.status = .completed

def World.CleansUp (w : World) (a : Action) : Prop :=
  ∀ t, w.step a = some t → w.object.finalizer = true → t.object.finalizer = false →
    ∀ m ∈ t.migrations, m.terminal = true ∨ m.cancelAccepted = true

def Pass.creates : Pass → Bool
  | .addFinalizer _ | .create _ => true
  | _ => false

/-- The object is edited or deleted only while no pass is about to create, and no migration is
running that the status does not name; it is not edited while its status says that one is. -/
def World.careful (w : World) : Action → Bool
  | .edit _ => !w.pass.creates && w.object.status.phase ≠ .running &&
      w.migrations.all (·.terminal)
  | .delete => !w.pass.creates && (List.range w.migrations.length).all fun i =>
      (w.migrations[i]?).all (·.terminal) || w.object.status.operationID = some i
  | _ => true

def Known (migrations : List Migration) (generation operationID : Nat) : Prop :=
  ∃ m, migrations[operationID]? = some m ∧ m.generation = generation

structure StatusOk (migrations : List Migration) (status : Status) : Prop where
  completed : status.phase = .completed → ∃ m ∈ migrations,
    m.generation = status.observedGeneration ∧ m.status = .completed
  running : status.phase = .running → ∀ operationID ∈ status.operationID,
    Known migrations status.observedGeneration operationID
  unset : status.phase = .none → status.operationID = none
  exists_of : ∀ operationID ∈ status.operationID, ∃ m, migrations[operationID]? = some m

def PassOk (migrations : List Migration) (generation : Nat) (deleted : Bool) : Pass → Prop
  | .idle => True
  | .addFinalizer o | .create o => o.deleted = false ∧ o.generation = generation ∧ deleted = false
  | .lookup o operationID => o.deleted = false ∧ Known migrations o.generation operationID
  | .update o status => o.deleted = false ∧ status.observedGeneration = o.generation ∧
      StatusOk migrations status
  | .cancel o operationID | .confirm o operationID =>
    o.deleted = true ∧ o.status.operationID = some operationID
  | .removeFinalizer o => o.deleted = true ∧ ∀ operationID ∈ o.status.operationID,
      ∀ m, migrations[operationID]? = some m → m.terminal = true ∨ m.cancelAccepted = true

def Pass.object : Pass → Option Object
  | .idle => none
  | .addFinalizer o | .create o | .lookup o _ | .update o _ | .cancel o _ | .confirm o _
  | .removeFinalizer o => some o

structure Sound (w : World) : Prop where
  status : StatusOk w.migrations w.object.status
  current : w.object.status.phase = .running →
    w.object.status.observedGeneration = w.object.generation
  deleted : w.object.deleted = true → ∀ i m, w.migrations[i]? = some m →
    m.terminal = true ∨ w.object.status.operationID = some i
  pass : PassOk w.migrations w.object.generation w.object.deleted w.pass
  snapshot : ∀ o ∈ w.pass.object, o.resourceVersion ≤ w.object.resourceVersion ∧
    (o.resourceVersion = w.object.resourceVersion → o = w.object)

def Grows (before after : List Migration) : Prop :=
  ∀ (i : Nat) (m : Migration), before[i]? = some m → ∃ m' : Migration, after[i]? = some m' ∧
    m'.generation = m.generation ∧ (m.terminal = true → m'.status = m.status) ∧
    (m.cancelAccepted = true → m'.cancelAccepted = true)

variable {w t : World} {ms ms' : List Migration}

theorem Grows.refl (ms : List Migration) : Grows ms ms := fun _ m h => ⟨m, h, rfl, fun _ => rfl, id⟩

theorem Grows.modify {f : Migration → Migration} (i : Nat)
    (hf : ∀ m, (f m).generation = m.generation ∧ (m.terminal = true → (f m).status = m.status) ∧
      (m.cancelAccepted = true → (f m).cancelAccepted = true)) : Grows ms (ms.modify i f) := by
  intro j m hj
  rw [getElem?_modify, hj]
  by_cases hij : i = j
  · exact ⟨f m, by simp [hij], hf m⟩
  · exact ⟨m, by simp [hij], rfl, fun _ => rfl, id⟩

variable {generation operationID : Nat} {o : Object}

theorem Grows.known (h : Grows ms ms') (hknown : Known ms generation operationID) :
    Known ms' generation operationID := by
  obtain ⟨m, hm, hgeneration⟩ := hknown
  obtain ⟨m', hm', hsame, -⟩ := h operationID m hm
  exact ⟨m', hm', hsame.trans hgeneration⟩

theorem Grows.statusOk (h : Grows ms ms') {status : Status} (hok : StatusOk ms status) :
    StatusOk ms' status where
  completed hphase := by
    obtain ⟨m, hm, hgeneration, hstatus⟩ := hok.completed hphase
    obtain ⟨i, hi⟩ := mem_iff_getElem?.mp hm
    obtain ⟨m', hm', hsame, hkept, -⟩ := h i m hi
    refine ⟨m', mem_of_getElem? hm', hsame.trans hgeneration, ?_⟩
    rw [hkept (by simp [Migration.terminal, hstatus, JobStatus.active]), hstatus]
  running hphase operationID hop := h.known (hok.running hphase operationID hop)
  unset := hok.unset
  exists_of operationID hop := by
    obtain ⟨m, hm⟩ := hok.exists_of operationID hop
    obtain ⟨m', hm', -⟩ := h operationID m hm
    exact ⟨m', hm'⟩

theorem terminal_of_status {m m' : Migration} (h : m'.status = m.status) :
    m'.terminal = m.terminal := by
  rw [Migration.terminal, h, Migration.terminal]

theorem PassOk.grow {deleted : Bool} {pass : Pass} (h : Grows ms ms')
    (hlength : ms'.length = ms.length) (hok : PassOk ms generation deleted pass) :
    PassOk ms' generation deleted pass := by
  cases pass with
  | lookup o operationID => exact ⟨hok.1, h.known hok.2⟩
  | update o status => exact ⟨hok.1, hok.2.1, h.statusOk hok.2.2⟩
  | removeFinalizer o =>
    refine ⟨hok.1, fun operationID hop m' hm' => ?_⟩
    have hlt : operationID < ms.length := hlength ▸ (List.getElem?_eq_some_iff.mp hm').1
    obtain ⟨m, hm⟩ : ∃ m, ms[operationID]? = some m := ⟨_, getElem?_eq_getElem hlt⟩
    obtain ⟨found, hfound, -, hkept, haccepted⟩ := h operationID m hm
    cases hfound.symm.trans hm'
    rcases hok.2 operationID hop m hm with hterminal | hcancel
    · exact .inl ((terminal_of_status (hkept hterminal)).trans hterminal)
    · exact .inr (haccepted hcancel)
  | _ => exact hok

theorem Sound.proceed (h : Sound w) (hdeleted : w.object.deleted = false) :
    PassOk w.migrations w.object.generation false w.object.proceed := by
  unfold Object.proceed
  simp only
  split_ifs with hidle hsettled
  · trivial
  · exact ⟨hdeleted, rfl, rfl⟩
  · split
    · rename_i operationID hop
      refine ⟨hdeleted, ?_⟩
      have hphase : w.object.status.phase = .running := by
        cases hphase : w.object.status.phase with
        | none => simp [h.status.unset hphase] at hop
        | running => rfl
        | completed | failed | rejected => simp [hphase] at hsettled
      rw [← h.current hphase]
      exact h.status.running hphase operationID hop
    · exact ⟨hdeleted, rfl, rfl⟩

theorem proceed_object {o' : Object} (h : o' ∈ o.proceed.object) : o' = o := by
  unfold Object.proceed at h
  simp only at h
  split_ifs at h
  · cases h
  · exact (some.inj h).symm
  · split at h <;> exact (some.inj h).symm

theorem Sound.reconcile (h : Sound w) : Sound { w with pass := w.object.reconcileOne } := by
  refine ⟨h.status, h.current, h.deleted, ?_, fun o ho => ?_⟩
  · unfold Object.reconcileOne
    split_ifs with hdeleted hvalid hfinalizer
    · split
      · exact ⟨hdeleted, ‹_›⟩
      · rename_i hnone
        exact ⟨hdeleted, by simp [hnone]⟩
    · exact ⟨by simpa using hdeleted, rfl, nofun, nofun, nofun, nofun⟩
    · simpa [hdeleted] using h.proceed (by simpa using hdeleted)
    · exact ⟨by simpa using hdeleted, rfl, by simpa using hdeleted⟩
  · have hsame : o = w.object := by
      unfold Object.reconcileOne at ho
      simp only at ho
      split_ifs at ho
      · split at ho <;> exact (some.inj ho).symm
      · exact (some.inj ho).symm
      · exact proceed_object ho
      · exact (some.inj ho).symm
    rw [hsame]
    exact ⟨le_rfl, fun _ => rfl⟩

theorem createMigration_spec (w : World) (o : Object) :
    Grows w.migrations (w.createMigration o).1 ∧
      Known (w.createMigration o).1 o.generation (w.createMigration o).2 := by
  unfold World.createMigration
  split
  · rename_i operationID hfind
    obtain ⟨hlt, hgeneration, -⟩ := findIdx?_eq_some_iff_getElem.mp hfind
    exact ⟨.refl _, _, getElem?_eq_getElem hlt, by simpa using hgeneration⟩
  · refine ⟨fun i m hm => ⟨m, ?_, rfl, fun _ => rfl, id⟩, _, getElem?_concat_length, rfl⟩
    rw [getElem?_append_left (List.getElem?_eq_some_iff.mp hm).1, hm]

theorem StatusOk.running_of (h : Known ms generation operationID) :
    StatusOk ms ⟨.running, generation, some operationID⟩ where
  completed := nofun
  running _ := by rintro _ ⟨⟩; exact h
  unset := nofun
  exists_of := by rintro _ ⟨⟩; exact ⟨h.choose, h.choose_spec.1⟩

theorem StatusOk.failed_of : StatusOk ms ⟨.failed, generation, none⟩ :=
  ⟨nofun, nofun, nofun, nofun⟩

theorem StatusOk.observed_of {m : Migration} (hm : ms[operationID]? = some m)
    (hgeneration : m.generation = o.generation) :
    StatusOk ms (observed o operationID m.status) ∧
      (observed o operationID m.status).observedGeneration = o.generation := by
  have hmem := mem_of_getElem? hm
  cases hstatus : m.status with
  | completed =>
    exact ⟨⟨fun _ => ⟨m, hmem, hgeneration, hstatus⟩, nofun, nofun,
      by rintro _ ⟨⟩; exact ⟨m, hm⟩⟩, rfl⟩
  | failed | cancelled => exact ⟨⟨nofun, nofun, nofun, by rintro _ ⟨⟩; exact ⟨m, hm⟩⟩, rfl⟩
  | queued | running => exact ⟨.running_of ⟨m, hm, hgeneration⟩, rfl⟩

theorem PassOk.of_not_creates {generation' : Nat} {deleted deleted' : Bool} {pass : Pass}
    (hpass : pass.creates = false) (hok : PassOk ms generation deleted pass) :
    PassOk ms generation' deleted' pass := by
  cases pass with
  | addFinalizer o | create o => cases hpass
  | _ => exact hok

section

variable (h : Sound w)

include h

theorem Sound.knows {pass : Pass} (hpass : w.pass = pass) :
    PassOk w.migrations w.object.generation w.object.deleted pass :=
  hpass ▸ h.pass

theorem Sound.rest : Sound { w with pass := .idle } :=
  ⟨h.status, h.current, h.deleted, trivial, nofun⟩

theorem Sound.goOn (hgrows : Grows w.migrations ms)
    (hdeleted : w.object.deleted = true → ms.length = w.migrations.length) {pass : Pass}
    (hpass : PassOk ms w.object.generation w.object.deleted pass)
    (hobject : w.pass.object = pass.object) :
    Sound { w with migrations := ms, pass } where
  status := hgrows.statusOk h.status
  current := h.current
  deleted hd i m' hm' := by
    have hlt : i < w.migrations.length := hdeleted hd ▸ (List.getElem?_eq_some_iff.mp hm').1
    obtain ⟨found, hfound, -, hkept, -⟩ := hgrows i _ (getElem?_eq_getElem hlt)
    cases hfound.symm.trans hm'
    rcases h.deleted hd i _ (getElem?_eq_getElem hlt) with hterminal | hop
    · exact .inl ((terminal_of_status (hkept hterminal)).trans hterminal)
    · exact .inr hop
  pass := hpass
  snapshot o ho := h.snapshot o (hobject ▸ ho)

theorem put_cases (ho : o ∈ w.pass.object) (outcome : Outcome) (f : Object → Object) :
    w.put o outcome f = w ∨ (o = w.object ∧ w.put o outcome f = { w with
      object := { f w.object with resourceVersion := w.object.resourceVersion + 1 } }) := by
  unfold World.put
  split_ifs with hrefused
  · exact .inl rfl
  · push Not at hrefused
    exact .inr ⟨(h.snapshot o ho).2 hrefused.2.1, rfl⟩

theorem Sound.addFinalizer (hpass : w.pass = .addFinalizer o) (outcome : Outcome) :
    Sound (w.request outcome) := by
  have hok := h.knows hpass
  unfold World.request
  rw [hpass]
  simp only
  rcases put_cases h (o := o) (by rw [hpass]; rfl) outcome ({ · with finalizer := true })
    with hput | ⟨rfl, hput⟩
  · -- a refused request, or one without effect, ends the pass
    have hidle : w.gone = true ∨ o.resourceVersion ≠ w.object.resourceVersion ∨ outcome ≠ .ok := by
      by_contra hno
      push Not at hno
      have := congrArg (·.object.resourceVersion) hput
      simp [World.put, hno] at this
    rw [hput, if_pos (by tauto)]
    exact h.rest
  · rw [hput]
    have hproceed := h.proceed hok.2.2
    refine ⟨h.status, h.current, fun hd => ?_, ?_, fun o ho => ?_⟩
    · simp [hok.2.2] at hd
    · split_ifs
      · trivial
      · simpa [hok.2.2] using hproceed
    · -- the version the pass has read is stale from here on
      split_ifs at ho
      · cases ho
      · rw [proceed_object ho]
        exact ⟨Nat.le_succ _, fun heq => absurd heq (Nat.succ_ne_self _).symm⟩

theorem Sound.create (hpass : w.pass = .create o) (outcome : Outcome) :
    Sound (w.request outcome) := by
  have hok := h.knows hpass
  have hlive (hd : w.object.deleted = true) : False := by simp [hok.2.2] at hd
  obtain ⟨hgrows, hknown⟩ := createMigration_spec w o
  have hobject : w.pass.object = some o := by rw [hpass]; rfl
  unfold World.request
  rw [hpass]
  cases outcome with
  | failed => exact h.goOn (.refl _) (fun _ => rfl) ⟨hok.1, rfl, .failed_of⟩ hobject
  | lost => exact h.goOn hgrows (fun hd => (hlive hd).elim) ⟨hok.1, rfl, .failed_of⟩ hobject
  | ok => exact h.goOn hgrows (fun hd => (hlive hd).elim) ⟨hok.1, rfl, .running_of hknown⟩ hobject

theorem Sound.lookup (hpass : w.pass = .lookup o operationID) (outcome : Outcome) :
    Sound (w.request outcome) := by
  have hok := h.knows hpass
  obtain ⟨m, hm, hgeneration⟩ := hok.2
  unfold World.request
  rw [hpass]
  cases outcome with
  | ok =>
    simp only [hm]
    obtain ⟨hstatus, hstamp⟩ := StatusOk.observed_of hm hgeneration
    exact h.goOn (.refl _) (fun _ => rfl) ⟨hok.1, hstamp, hstatus⟩
      (by rw [hpass]; rfl)
  | failed | lost => exact h.rest

theorem Sound.update {status : Status} (hpass : w.pass = .update o status) (outcome : Outcome) :
    Sound (w.request outcome) := by
  have hok := h.knows hpass
  unfold World.request
  rw [hpass]
  simp only
  rcases put_cases h (o := o) (by rw [hpass]; rfl) outcome ({ · with status }) with
    hput | ⟨rfl, hput⟩
  · rw [hput]
    exact h.rest
  · rw [hput]
    exact ⟨hok.2.2, fun _ => hok.2.1, fun hd => by simp [hok.1] at hd, trivial, nofun⟩

theorem Sound.cancel (hpass : w.pass = .cancel o operationID) (outcome : Outcome) :
    Sound (w.request outcome) := by
  have hok := h.knows hpass
  have hgrows : Grows w.migrations
      (w.migrations.modify operationID ({ · with cancelAccepted := true })) :=
    .modify _ fun m => ⟨rfl, fun _ => rfl, fun _ => rfl⟩
  have hobject : w.pass.object = some o := by rw [hpass]; rfl
  unfold World.request
  rw [hpass]
  cases outcome with
  | failed => exact h.goOn (.refl _) (fun _ => rfl) hok hobject
  | lost => exact h.goOn hgrows (fun _ => length_modify ..) hok hobject
  | ok =>
    refine h.goOn hgrows (fun _ => length_modify ..) ⟨hok.1, fun i hi m hm => .inr ?_⟩ hobject
    cases hok.2.symm.trans hi
    simp only [getElem?_modify, if_true, Option.map_eq_map, map_eq_some_iff] at hm
    obtain ⟨_, -, rfl⟩ := hm
    rfl

theorem Sound.confirm (hpass : w.pass = .confirm o operationID) (outcome : Outcome) :
    Sound (w.request outcome) := by
  have hok := h.knows hpass
  unfold World.request
  rw [hpass]
  simp only
  split_ifs with hterminal
  · refine h.goOn (.refl _) (fun _ => rfl) ⟨hok.1, fun i hi m hm => .inl ?_⟩
      (by rw [hpass]; rfl)
    cases hok.2.symm.trans hi
    simpa [hm] using hterminal.2
  · exact h.rest

theorem Sound.removeFinalizer (hpass : w.pass = .removeFinalizer o) (outcome : Outcome) :
    Sound (w.request outcome) := by
  unfold World.request
  rw [hpass]
  simp only
  rcases put_cases h (o := o) (by rw [hpass]; rfl) outcome ({ · with finalizer := false })
    with hput | ⟨-, hput⟩
  all_goals
    rw [hput]
    exact ⟨h.status, h.current, h.deleted, trivial, nofun⟩

theorem Sound.request (outcome : Outcome) : Sound (w.request outcome) := by
  cases hpass : w.pass with
  | idle => simpa [World.request, hpass] using h
  | addFinalizer o => exact h.addFinalizer hpass outcome
  | create o => exact h.create hpass outcome
  | lookup o operationID => exact h.lookup hpass outcome
  | update o status => exact h.update hpass outcome
  | cancel o operationID => exact h.cancel hpass outcome
  | confirm o operationID => exact h.confirm hpass outcome
  | removeFinalizer o => exact h.removeFinalizer hpass outcome

end

theorem Sound.stale (h : Sound w) {written : Object} (ho : o ∈ w.pass.object) :
    o.resourceVersion ≤ w.object.resourceVersion + 1 ∧
      (o.resourceVersion = w.object.resourceVersion + 1 → o = written) := by
  have := (h.snapshot o ho).1
  exact ⟨by omega, fun heq => by omega⟩

theorem Sound.step (h : Sound w) {a : Action} (hcareful : w.careful a = true)
    (hstep : w.step a = some t) : Sound t := by
  cases a with
  | reconcile =>
    simp only [World.step, ite_none_left_eq_some, some.injEq] at hstep
    exact hstep.2 ▸ h.reconcile
  | request outcome => cases hstep; exact h.request outcome
  | restart => cases hstep; exact h.rest
  | edit spec =>
    simp only [World.step, ite_none_left_eq_some, some.injEq] at hstep
    obtain ⟨-, rfl⟩ := hstep
    simp only [World.careful, Bool.and_eq_true, Bool.not_eq_true', decide_eq_true_eq] at hcareful
    exact ⟨h.status, fun hrunning => absurd hrunning hcareful.1.2, h.deleted,
      h.pass.of_not_creates hcareful.1.1,
      fun _ => h.stale⟩
  | delete =>
    simp only [World.step, ite_none_left_eq_some, some.injEq] at hstep
    obtain ⟨-, rfl⟩ := hstep
    simp only [World.careful, Bool.and_eq_true, Bool.not_eq_true', List.all_eq_true,
      mem_range, Bool.or_eq_true, decide_eq_true_eq] at hcareful
    refine ⟨h.status, h.current, fun _ i m hm => ?_, h.pass.of_not_creates hcareful.1,
      fun _ => h.stale⟩
    have hi := hcareful.2 i (List.getElem?_eq_some_iff.mp hm).1
    have hm : w.migrations[i]? = some m := hm
    simpa [hm] using hi
  | touch =>
    cases hstep
    exact ⟨h.status, h.current, h.deleted, h.pass, fun _ => h.stale⟩
  | progress operationID status =>
    cases hstep
    have hgrows : Grows w.migrations (w.migrations.modify operationID fun m =>
        if m.terminal then m else { m with status }) := by
      refine .modify _ fun m => ?_
      split_ifs with hterminal
      · exact ⟨rfl, fun _ => rfl, id⟩
      · exact ⟨rfl, fun hyes => absurd hyes hterminal, id⟩
    exact h.goOn hgrows (fun _ => length_modify ..)
      (h.pass.grow hgrows (length_modify ..)) rfl

theorem removes (h : Sound w) {a : Action} (hstep : w.step a = some t)
    (hbefore : w.object.finalizer = true) (hafter : t.object.finalizer = false) :
    w.pass = .removeFinalizer w.object ∧ t.migrations = w.migrations := by
  cases a with
  | request outcome =>
    cases hstep
    unfold World.request at hafter ⊢
    cases hpass : w.pass with
    | addFinalizer o =>
      simp only [hpass] at hafter
      rcases put_cases h (o := o) (by rw [hpass]; rfl) outcome ({ · with finalizer := true })
        with hput | ⟨-, hput⟩ <;> simp [hput, hbefore] at hafter
    | update o status =>
      simp only [hpass] at hafter
      rcases put_cases h (o := o) (by rw [hpass]; rfl) outcome ({ · with status })
        with hput | ⟨-, hput⟩ <;> simp [hput, hbefore] at hafter
    | removeFinalizer o =>
      simp only [hpass] at hafter ⊢
      rcases put_cases h (o := o) (by rw [hpass]; rfl) outcome ({ · with finalizer := false })
        with hput | ⟨rfl, hput⟩
      · simp [hput, hbefore] at hafter
      · exact ⟨rfl, by rw [hput]⟩
    | create o => cases outcome <;> simp [hpass, hbefore] at hafter
    | lookup o operationID =>
      simp only [hpass] at hafter
      split at hafter <;> simp [hbefore] at hafter
    | idle | cancel o operationID | confirm o operationID => simp [hpass, hbefore] at hafter
  | restart | touch | progress operationID status => cases hstep; simp [hbefore] at hafter
  | reconcile | edit spec | delete =>
    simp only [World.step, ite_none_left_eq_some, some.injEq] at hstep
    rw [← hstep.2] at hafter
    simp [hbefore] at hafter

theorem Sound.cleansUp (h : Sound w) (a : Action) : w.CleansUp a := by
  intro t hstep hbefore hafter m hm
  obtain ⟨hpass, hsame⟩ := removes h hstep hbefore hafter
  have hok := h.knows hpass
  rw [hsame] at hm
  obtain ⟨i, hi⟩ := mem_iff_getElem?.mp hm
  rcases h.deleted hok.1 i m hi with hterminal | hop
  · exact .inl hterminal
  · exact hok.2 i hop m hi

theorem sound_initial (spec : MigrationSpec) : Sound (World.initial spec) :=
  ⟨⟨nofun, nofun, fun _ => rfl, nofun⟩, nofun, nofun, trivial, nofun⟩

/-- In every run whose edits and deletions meet the condition, a completed status is about a
completed migration of its generation, and no step that removes the finalizer leaves a migration
running. -/
theorem controller_reports_and_cleans_up (spec : MigrationSpec) {actions : List Action}
    (hcareful : Meets World.step (fun w a => w.careful a = true) (.initial spec) actions) :
    Meets World.step (fun w a => w.Reports ∧ w.CleansUp a) (.initial spec) actions ∧
    ∀ w, exec World.step (.initial spec) actions = some w → w.Reports :=
  ⟨.of_invariant Sound (fun _ _ _ h hc hs => h.step hc hs)
    (fun _ a h _ => ⟨h.status.completed, h.cleansUp a⟩) (sound_initial spec) hcareful, fun _ hrun =>
    (exec_invariant Sound (fun _ _ _ h hc hs => h.step hc hs) (sound_initial spec) hcareful
      hrun).status.completed⟩

def toEdge : MigrationSpec := ⟨"w", "a", "b", "live"⟩

def created : List Action := [.reconcile, .request .ok, .request .ok, .request .ok]

def running : List Action := created ++ [.reconcile, .request .ok, .request .ok]

def wholeLife : List Action :=
  running ++ [.progress 0 .completed, .reconcile, .request .ok, .request .ok, .delete, .reconcile,
    .request .failed, .request .ok, .request .ok]

theorem controller_reports_and_cleans_up_sample :
    Meets World.step (fun w a => w.Reports ∧ w.CleansUp a) (.initial toEdge) wholeLife ∧
    (exec World.step (.initial toEdge) wholeLife).map
      (fun w => (w.object.status.phase, w.gone)) = some (.completed, true) :=
  ⟨(controller_reports_and_cleans_up toEdge (by decide)).1, by decide⟩

def editedWhileRunning : List Action :=
  running ++ [.edit { toEdge with destinationMachineID := "c" }, .progress 0 .completed,
    .reconcile, .request .ok, .request .ok]

def deletedUnnamed : List Action := created ++ [.delete, .reconcile]

/-- The status says that the second generation has completed, of which there is no migration; and
the finalizer goes while the migration is queued. -/
theorem edit_and_delete_lose_migration :
    (∃ w, exec World.step (.initial toEdge) editedWhileRunning = some w ∧ ¬ w.Reports) ∧
    ∃ w, exec World.step (.initial toEdge) deletedUnnamed = some w ∧
      ¬ w.CleansUp (.request .ok) := by
  unfold World.Reports World.CleansUp
  decide

end Shiftgate.Kubernetes
