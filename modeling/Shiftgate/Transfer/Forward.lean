import Shiftgate.Library.Runs
import Shiftgate.Transfer.Advance

/-! How a session's state moves under interleaved requests. A step changes the stored session in one
of three ways: a reservation creates it, the reaper fails it, or a request writes back. From what
each write-back does follows which moves a run can make. -/

namespace Shiftgate.Transfer

open Library Checkpoint Destination Point SessionState

variable {d d' : Destination} {task : Task} {work : Work} {point : Point}

structure WritesBack (d d' : Destination) (task : Task) (s s' : Session) : Prop where
  found : d.target task = .ok s
  change : task.point.change s = .ok s'
  before : d.session = some s
  after : d'.session = some s'

theorem PointMove.session (h : PointMove d task work d' point) :
    d'.session = d.session ∨ ∃ s s', WritesBack d d' task s s' := by
  cases h with
  | wrote hwrites hfound hchange hs => exact .inr ⟨_, _, hfound, hchange, hs, rfl⟩
  | refused | failed | stored | prepare | commit | rollback => exact .inl rfl

theorem reapExpired_session (d : Destination) : d.reapExpired.session = reap d.session d.now := by
  unfold reapExpired
  split
  · rfl
  · split <;> rfl

inductive SessionMove (d : Destination) (a : Action) (d' : Destination) : Prop
  | same (h : d'.session = d.session)
  | created (s' : Session) (hnone : d.session = none) (hsome : d'.session = some s')
  | reaped (s : Session) (hbefore : d.session = some s) (hexpired : sessionExpired s d.now = true)
      (hafter : d'.session = some { s with state := .failed, failureReason := expiredReason })
  | wrote (i : Nat) (work : Work) (task : Task) (s s' : Session) (ha : a = .advance i work)
      (htask : d.tasks[i]? = some task) (hwrote : WritesBack d d' task s s')

theorem SessionMove.of_reap {a : Action} (h : d'.session = reap d.session d.now) :
    SessionMove d a d' := by
  cases hs : d.session with
  | none => exact .same (by rw [h, hs]; rfl)
  | some s =>
    cases hx : sessionExpired s d.now with
    | false => exact .same (by rw [h, hs]; simp [reap, hx])
    | true => exact .reaped s hs hx (by rw [h, hs]; simp [reap, hx])

theorem step_session {a : Action} (h : d.step a = some d') : SessionMove d a d' := by
  cases step_change h with
  | start hup hm =>
    cases hm with
    | reserved hnone => exact .created _ hnone rfl
    | refused | held | request => exact .same rfl
  | @advance i work task e p' hup hi hm =>
    rcases hm.session with hsame | ⟨s, s', hw⟩
    · exact .same hsame
    · exact .wrote i work task s s' rfl hi ⟨hw.found, hw.change, hw.before, hw.after⟩
  | reap | boot => exact .of_reap (reapExpired_session d)
  | tick | processExit | crash | recover | serve => exact .same rfl

def Point.admits : Point → SessionState → Bool
  | .importManifest _, state | .chunkGate _, state => state = .keyReady || state = .manifestReady
  | .verify, state => state = .manifestReady || state = .verified
  | .prepared _, state | .prepareFailed, state => state = .verified
  | .rolledBack _, state => state ≠ .committed
  | .importKey _, _ | .chunkImport .., _ | .preparing _, _ | .committing _, _ | .committed, _
  | .rolling .., _ | .hold _, _ | .done _, _ => true

/-- A write-back that the step makes finds the session in a state that the handler's check
admits. -/
def WritesAdmitted (d : Destination) : Action → Prop
  | .advance i _ => ∀ task ∈ d.tasks[i]?, ∀ s ∈ (d.target task).toOption,
      task.point.admits s.state = true
  | _ => True

def SessionState.ingested : SessionState → Bool
  | .reserved | .keyReady | .manifestReady => false
  | _ => true

/-- A committed or rolled back session stays, a failed one at most becomes rolled back, a settled
one takes no bytes and no manifest, and ingest does not begin again. -/
structure Forward (s s' : Session) : Prop where
  committed : s.state = .committed → s'.state = .committed
  rolledBack : s.state = .rolledBack → s'.state = .rolledBack
  failed : s.state = .failed → s'.state = .failed ∨ s'.state = .rolledBack
  settled : s.state.terminal = true →
    s'.checkpointID = s.checkpointID ∧ s'.attemptedBytes = s.attemptedBytes
  ingested : s.state.ingested = true → s'.state.ingested = true

namespace Forward

variable {s s' s'' : Session}

theorem refl (s : Session) : Forward s s :=
  ⟨id, id, .inl, fun _ => ⟨rfl, rfl⟩, id⟩

theorem terminal (h : Forward s s') (hs : s.state.terminal = true) : s'.state.terminal = true := by
  cases hstate : s.state <;> simp [hstate, SessionState.terminal] at hs
  · simp [h.committed hstate, SessionState.terminal]
  · simp [h.rolledBack hstate, SessionState.terminal]
  · rcases h.failed hstate with h' | h' <;> simp [h', SessionState.terminal]

theorem trans (h : Forward s s') (h' : Forward s' s'') : Forward s s'' where
  committed hs := h'.committed (h.committed hs)
  rolledBack hs := h'.rolledBack (h.rolledBack hs)
  failed hs := by
    rcases h.failed hs with hf | hr
    · exact h'.failed hf
    · exact .inr (h'.rolledBack hr)
  settled hs := by
    obtain ⟨hc, hb⟩ := h.settled hs
    obtain ⟨hc', hb'⟩ := h'.settled (h.terminal hs)
    exact ⟨hc'.trans hc, hb'.trans hb⟩
  ingested hs := h'.ingested (h.ingested hs)

theorem reaped {now : Nat} (h : sessionExpired s now = true) (reason : String) :
    Forward s { s with state := .failed, failureReason := reason } := by
  simp only [sessionExpired, Bool.and_eq_true, decide_eq_true_eq] at h
  obtain ⟨⟨-, hcommitted⟩, hrolledBack⟩ := h
  exact ⟨fun hs => absurd hs hcommitted, fun hs => absurd hs hrolledBack, fun _ => .inl rfl,
    fun _ => ⟨rfl, rfl⟩, fun _ => rfl⟩

theorem of_ingesting (h : s.state.ingested = false) (s' : Session) : Forward s s' := by
  cases hs : s.state <;> simp [hs, SessionState.ingested] at h <;>
    constructor <;> simp [hs, SessionState.terminal, SessionState.ingested]

theorem of_open (h : s.state.terminal = false) (hs' : s'.state.ingested = true) : Forward s s' := by
  cases hs : s.state <;> simp [hs, SessionState.terminal] at h <;>
    constructor <;> simp [hs, hs', SessionState.terminal]

end Forward

theorem Point.change_forward {p : Point} {s s' : Session} (h : p.change s = .ok s')
    (hadmits : p.admits s.state = true) : Forward s s' := by
  have ingesting : s.state = .keyReady ∨ s.state = .manifestReady → Forward s s' := by
    rintro (hs | hs) <;> exact .of_ingesting (by simp [hs, ingested]) s'
  cases p with
  | importKey keyVersion =>
    simp only [change] at h
    split at h
    · rename_i hs
      refine .of_ingesting ?_ s'
      rcases List.mem_pair.mp hs with hs | hs <;> simp [hs, ingested]
    · cases h
  | importManifest checkpointID | chunkGate storedSize =>
    exact ingesting (by simpa [admits] using hadmits)
  | verify =>
    cases h
    refine .of_open ?_ rfl
    rcases (by simpa [admits] using hadmits : s.state = .manifestReady ∨ s.state = .verified)
      with hs | hs <;> simp [hs, terminal]
  | prepared id | prepareFailed =>
    cases h
    have hs : s.state = .verified := by simpa [admits] using hadmits
    exact .of_open (by simp [hs, terminal]) rfl
  | committed | hold input =>
    simp only [change] at h
    split at h
    · cases h
    · split at h
      · rename_i hs
        cases h
        exact .of_open (by simp [hs, terminal]) rfl
      · cases h
  | rolledBack restoreID =>
    cases h
    have hs : s.state ≠ .committed := by simpa [admits] using hadmits
    exact ⟨fun h => absurd h hs, fun _ => rfl, fun _ => .inr rfl, fun _ => ⟨rfl, rfl⟩, fun _ => rfl⟩
  | chunkImport =>
    cases h
    exact ⟨id, id, .inl, fun _ => ⟨rfl, rfl⟩, id⟩
  | preparing | committing | rolling | done =>
    cases h
    exact .refl s

theorem step_forward {a : Action} {s : Session} (h : d.step a = some d')
    (hadmitted : WritesAdmitted d a) (hs : d.session = some s) :
    ∃ s', d'.session = some s' ∧ Forward s s' := by
  cases step_session h with
  | same hsame => exact ⟨s, hsame.trans hs, .refl s⟩
  | created s' hnone hsome => simp [hnone] at hs
  | reaped s₀ hbefore hexpired hafter =>
    cases hbefore.symm.trans hs
    exact ⟨_, hafter, .reaped hexpired _⟩
  | wrote i work task s₀ s' ha htask hwrote =>
    cases hwrote.before.symm.trans hs
    subst ha
    refine ⟨s', hwrote.after, change_forward hwrote.change ?_⟩
    exact hadmitted task htask s (by simp [hwrote.found, Except.toOption])

instance (d : Destination) : ∀ a, Decidable (WritesAdmitted d a)
  | .advance i _ => inferInstanceAs (Decidable (∀ task ∈ d.tasks[i]?, ∀ s ∈ _, _ = true))
  | .start .. | .reapExpired | .tick | .processExit | .crash | .recover .. | .boot | .serve =>
    isTrue trivial

def reservationFor (expiresAt : Option Nat) : Reservation :=
  { sourceMachineID := "source", workloadID := "workload", estimatedBytes := 1024, expiresAt,
    purpose := "" }

def sampleManifest : Manifest :=
  { id := "checkpoint", sourceID := "source", workloadID := "workload", keyVersion := 1 }

def reservedDestination : Destination :=
  ({} : Destination).start "source" (.reserve (reservationFor none))

def wholeTransfer : List Action :=
  [.start "source" (.importKey "workload" 1), .advance 1 .ok,
    .start "source" (.importManifest sampleManifest), .advance 2 .ok,
    .start "source" (.importChunk 1 100), .advance 3 .ok, .advance 3 .ok,
    .start "source" .verify, .advance 4 .ok, .start "source" .restore] ++
  List.replicate 7 (.advance 5 .ok) ++
  [.start "source" .commit, .advance 6 .ok, .advance 6 .ok, .advance 6 .ok,
    .start "source" .rollback]

def reapedRun : List Action :=
  [.start "source" (.reserve (reservationFor (some 0))), .tick, .reapExpired]

def rollbackRun : List Action := [.start "source" .rollback, .advance 1 .ok]

def lateManifestRun : List Action :=
  [.start "source" (.reserve (reservationFor none)), .start "source" (.importKey "workload" 1),
    .advance 1 .ok, .start "source" (.importManifest sampleManifest), .start "source" .rollback,
    .advance 3 .ok]

end Shiftgate.Transfer
