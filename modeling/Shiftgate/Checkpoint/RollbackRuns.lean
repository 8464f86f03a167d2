import Shiftgate.Checkpoint.RollbackSafety

/-! Runs of one restore over a root that existed before it: `Prepare`, then any number of restarts,
`Rollback` calls and commits, each of which can fail or crash at any step. -/

namespace Shiftgate.Checkpoint

open Library Option

variable {T : Type} {isEmpty : T → Bool} {original : T} {s : SwitchState T}

structure SwitchRun (T : Type) where
  state : SwitchState T
  up : Bool
  prepared : Bool

def SwitchRun.init (original : T) : SwitchRun T where
  state := { target := some original, backup := none, failed := none
             record := { state := .preparing, backupRoot := true }, saved := none, returned := [] }
  up := true
  prepared := false

inductive SwitchAction (T : Type) where
  | prepare (faults : PrepareFaults T)
  | rollback (faults : RollbackFaults)
  | commit (faults : CommitFaults T)
  | restart (alive : Bool) (rollbackFaults : RollbackFaults) (commitFaults : CommitFaults T)

def SwitchRun.after (o : Outcome (SwitchState T) String Unit) : SwitchRun T :=
  match o with
  | .ok _ state => { state, up := true, prepared := true }
  | .error _ state => { state, up := true, prepared := true }
  | .crash state => { state, up := false, prepared := true }

/-- An agent whose `Recover` fails does not come up. -/
def SwitchRun.afterRestart (r : SwitchRun T) (o : Outcome (SwitchState T) String Unit) :
    SwitchRun T :=
  match o with
  | .ok _ state => { r with state, up := true }
  | .error _ state => { r with state, up := false }
  | .crash state => { r with state, up := false }

def SwitchRun.step (isEmpty : T → Bool) (r : SwitchRun T) : SwitchAction T → Option (SwitchRun T)
  | .prepare faults =>
    if r.up ∧ ¬ r.prepared then some (.after (Checkpoint.prepare isEmpty faults r.state)) else none
  | .rollback faults =>
    if r.up ∧ r.prepared then some (.after (rollbackCall isEmpty faults r.state)) else none
  | .commit faults =>
    if r.up ∧ r.prepared then some (.after (Checkpoint.commit faults r.state)) else none
  | .restart alive rollbackFaults commitFaults =>
    some (r.afterRestart (recover isEmpty alive rollbackFaults commitFaults r.state))

def SwitchAction.rollsBack (state : RestoreState) : SwitchAction T → Bool
  | .prepare _ => false
  | .rollback _ => state ≠ .rolledBack && state ≠ .committed
  | .commit _ => false
  | .restart alive _ _ =>
    match state with
    | .preparing | .filesystemSwitched | .processRunning | .rollingBack => true
    | .validated => !alive
    | .committed | .rolledBack => false

/-- A rollback finds the original whole in the backup, or no backup and a record that does not claim
a switch. -/
def ReadsRight (original : T) (s : SwitchState T) (record : RestoreRecord) : Prop :=
  s.backup = some original ∨ (s.backup = none ∧ record.state.switched = false)

def RollsBackRight (original : T) (r : SwitchRun T) (action : SwitchAction T) : Prop :=
  ∀ record ∈ r.state.saved, action.rollsBack record.state = true →
    ReadsRight original r.state record

instance [DecidableEq T] (original : T) (s : SwitchState T) (record : RestoreRecord) :
    Decidable (ReadsRight original s record) :=
  inferInstanceAs (Decidable (_ ∨ _))

instance [DecidableEq T] (original : T) (r : SwitchRun T) (action : SwitchAction T) :
    Decidable (RollsBackRight original r action) :=
  inferInstanceAs (Decidable (∀ record ∈ r.state.saved, _ → _))

theorem Sound.honest (h : Sound original s) : Honest original s := by
  rcases h with h | h | h <;> exact h.honest

variable {record : RestoreRecord} {faults rollbackFaults : RollbackFaults} {alive : Bool}
  {commitFaults : CommitFaults T}

theorem Sound.guarded (h : Sound original s) (hsaved : s.saved = some record)
    (hopen : record.state ≠ .rolledBack) (huncommitted : record.state ≠ .committed)
    (hreads : ReadsRight original s record) : Guarded original { s with record } := by
  rcases h with h | h | ⟨⟨r, hr, hlate, hnamed⟩, honest⟩
  · exact .inl ⟨⟨h.backup, h.saved, h.honest⟩, (h.saved record hsaved).1⟩
  · rcases hreads with hbackup | ⟨-, hstate⟩
    · rw [h.backup] at hbackup
      cases hbackup
    · exact .inr ⟨⟨h.target, h.backup, h.honest⟩, hstate⟩
  · cases hsaved.symm.trans hr
    rcases hlate with hvalidated | hcommitted
    · rcases hreads with hbackup | ⟨-, hstate⟩
      · have hroot : record.backupRoot = true := hnamed (by simp [hbackup])
        refine .inl ⟨⟨hbackup, fun q hq => ?_, honest⟩, hroot⟩
        cases hsaved.symm.trans hq
        exact ⟨hroot, hopen⟩
      · simp [hvalidated, RestoreState.switched] at hstate
    · exact absurd hcommitted huncommitted

theorem wp_rollback_saved (h : Guarded original { s with record }) :
    wp (do Program.modify fun s => { s with record }; rollback isEmpty faults)
      (.always (Sound original)) s := by
  rw [wp_bind, wp_modify]
  exact wp_mono (wp_rollback h) (fun _ _ ht => .inr (.inl ht)) (fun _ _ ht => Kept.sound ht)
    fun _ ht => Kept.sound ht

theorem Sound.restored (h : Sound original s) (hsaved : s.saved = some record)
    (hend : record.state = .rolledBack) : Restored original s := by
  rcases h with h | h | ⟨⟨r, hr, hlate, -⟩, -⟩
  · exact absurd hend (h.saved record hsaved).2
  · exact h
  · cases hsaved.symm.trans hr
    rw [hend] at hlate
    simp at hlate

theorem wp_rollbackCall (h : Sound original s)
    (hreads : ∀ r, s.saved = some r → r.state ≠ .rolledBack → r.state ≠ .committed →
      ReadsRight original s r) : wp (rollbackCall isEmpty faults) (.always (Sound original)) s := by
  simp only [rollbackCall, wp_bind, wp_get]
  cases hsaved : s.saved with
  | none => exact h
  | some r =>
    simp only [wp_ite, wp_throw, wp_modify]
    refine ⟨fun hend => .inr (.inl (h.restored hsaved hend).return),
      fun hopen => ⟨fun _ => h, fun huncommitted => ?_⟩⟩
    have hguarded := h.guarded hsaved hopen huncommitted (hreads r hsaved hopen huncommitted)
    exact wp_bind .. |>.mp (wp_rollback_saved hguarded)

theorem wp_recover (h : Sound original s) (hreads : ∀ r, s.saved = some r →
      (SwitchAction.restart alive rollbackFaults commitFaults).rollsBack r.state = true →
        ReadsRight original s r) :
    wp (recover isEmpty alive rollbackFaults commitFaults) (.always (Sound original)) s := by
  simp only [recover, wp_bind, wp_get]
  cases hsaved : s.saved with
  | none => exact h
  | some r =>
    have reads := hreads r hsaved
    have rolled : r.state ≠ .rolledBack → r.state ≠ .committed → ReadsRight original s r →
        wp (do Program.modify fun s => { s with record := r }; rollback isEmpty rollbackFaults)
          (.always (Sound original)) s :=
      fun hopen hun hr => wp_rollback_saved (h.guarded hsaved hopen hun hr)
    cases hstate : r.state with
    | committed | rolledBack =>
      simp only [hstate]
      exact h
    | validated =>
      simp only [hstate, wp_ite]
      refine ⟨fun _ => wp_commit h, fun hdead => ?_⟩
      exact rolled (by simp [hstate]) (by simp [hstate])
        (reads (by simpa [SwitchAction.rollsBack, hstate] using hdead))
    | preparing | filesystemSwitched | processRunning | rollingBack =>
      simp only [hstate]
      exact rolled (by simp [hstate]) (by simp [hstate])
        (reads (by simp [SwitchAction.rollsBack, hstate]))

theorem recover_unsaved (h : s.saved = none) :
    recover isEmpty alive rollbackFaults commitFaults s = .ok () s := by
  simp only [recover, bind, Program.bind, Program.get, h]
  rfl

structure SwitchRun.Sound (original : T) (r : SwitchRun T) : Prop where
  state : Checkpoint.Sound original r.state
  fresh : r.prepared = false → Restored original r.state ∧ r.state.saved = none

theorem SwitchRun.Sound.step {r t : SwitchRun T} {action : SwitchAction T} (h : r.Sound original)
    (hright : RollsBackRight original r action) (ht : r.step isEmpty action = some t) :
    t.Sound original := by
  have called : ∀ {p : Program (SwitchState T) String Unit},
      wp p (.always (Checkpoint.Sound original)) r.state →
        (SwitchRun.after (p r.state)).Sound original := by
    intro p hp
    unfold wp at hp
    cases ho : p r.state <;> rw [ho] at hp <;> exact ⟨hp, by simp [SwitchRun.after]⟩
  cases action with
  | prepare faults =>
    simp only [SwitchRun.step, ite_none_right_eq_some, some.injEq] at ht
    obtain ⟨⟨-, hprepared⟩, rfl⟩ := ht
    exact called (wp_mono (wp_prepare (h.fresh (by simpa using hprepared)).1)
      (fun _ _ ht => Kept.sound ht) (fun _ _ ht => Kept.sound ht) fun _ ht => Kept.sound ht)
  | rollback faults =>
    simp only [SwitchRun.step, ite_none_right_eq_some, some.injEq] at ht
    obtain ⟨-, rfl⟩ := ht
    refine called (wp_rollbackCall h.state fun record hr hopen hun => hright record hr ?_)
    simp [SwitchAction.rollsBack, hopen, hun]
  | commit faults =>
    simp only [SwitchRun.step, ite_none_right_eq_some, some.injEq] at ht
    obtain ⟨-, rfl⟩ := ht
    exact called (wp_commit h.state)
  | restart alive rollbackFaults commitFaults =>
    simp only [SwitchRun.step, some.injEq] at ht
    subst ht
    cases hprepared : r.prepared with
    | false =>
      rw [recover_unsaved (h.fresh hprepared).2]
      exact ⟨h.state, fun _ => h.fresh hprepared⟩
    | true =>
      have hrecover : (recover isEmpty alive rollbackFaults commitFaults r.state).Meets
          (.always (Checkpoint.Sound original)) := wp_recover h.state hright
      cases ho : recover isEmpty alive rollbackFaults commitFaults r.state <;>
        rw [ho] at hrecover <;> exact ⟨hrecover, by simp [SwitchRun.afterRestart, hprepared]⟩

/-- In every run whose rollbacks all read the directories right, every successful rollback left the
original root at the target. -/
theorem rollback_restores_original {r : SwitchRun T} {as : List (SwitchAction T)}
    (hright : Meets (SwitchRun.step isEmpty) (RollsBackRight original) (.init original) as)
    (hrun : exec (SwitchRun.step isEmpty) (.init original) as = some r) :
    ∀ target ∈ r.state.returned, target = some original := by
  have hinit : (SwitchRun.init original).Sound original := by
    have hrestored : Restored original (SwitchRun.init original).state :=
      ⟨rfl, rfl, by simp [Honest, SwitchRun.init]⟩
    exact ⟨.inr (.inl hrestored), fun _ => ⟨hrestored, rfl⟩⟩
  have hsound : r.Sound original :=
    exec_invariant (SwitchRun.Sound original) (fun _ _ _ h hs ht => h.step hs ht) hinit hright hrun
  exact hsound.state.honest

theorem wp_moveAside_target :
    wp (moveAside isEmpty faults)
      { ok := fun _ t => t.target = none ∧ t.backup = s.backup
        error := fun _ _ => True
        crash := fun _ => True } s := by
  simp only [moveAside, wp_bind, wp_get, wp_ite]
  refine ⟨fun _ => wp_renameWithin ⟨fun _ => trivial, trivial⟩ fun _ _ => ⟨rfl, rfl⟩, fun h => ?_⟩
  exact ⟨by simpa using h, rfl⟩

theorem wp_restoreBackup_target {moved : Bool} :
    wp (restoreBackup isEmpty faults moved)
      { ok := fun _ t => t.target = s.backup
        error := fun _ _ => True
        crash := fun _ => True } s := by
  simp only [restoreBackup, wp_bind, wp_attempt]
  refine wp_renameWithin ⟨fun _ => ?_, trivial⟩ fun content hcontent => hcontent.symm
  simp only [wp_bind, wp_onlyIf]
  exact ⟨fun _ => wp_mono (wp_removeFailedRoot (P := fun _ => True) trivial trivial)
    (fun _ _ _ => trivial) (fun _ _ _ => trivial) fun _ _ => trivial, fun _ => trivial⟩

theorem wp_rollbackRoots_target {backupOnDisk : Bool} :
    wp (rollbackRoots isEmpty faults backupOnDisk)
      { ok := fun _ t => t.target = if backupOnDisk then s.backup else none
        error := fun _ _ => True
        crash := fun _ => True } s := by
  simp only [rollbackRoots, wp_bind]
  refine wp_effect_id (fun _ => ?_) fun _ => ⟨trivial, trivial⟩
  simp only [wp_bind]
  refine wp_effect_id (fun _ => ?_) fun _ => ⟨trivial, trivial⟩
  simp only [wp_bind]
  refine wp_mono wp_moveAside_target (fun moved t ht => ?_) (fun _ _ _ => trivial)
    fun _ _ => trivial
  cases backupOnDisk with
  | false => exact ht.1
  | true =>
    simp only [if_true, wp_bind]
    rw [← ht.2]
    exact wp_restoreBackup_target

/-- The target that a successful rollback leaves: the backup if the record names one that is on
disk, else nothing if the record claims a switch, else what was there. -/
theorem wp_rollback_target :
    wp (rollback isEmpty faults)
      { ok := fun _ t => t.target =
          if s.record.backupRoot && s.backup.isSome then s.backup
          else if s.record.state.switched then none else s.target
        error := fun _ _ => True
        crash := fun _ => True } s := by
  have ended : ∀ {moved : Bool} {target : Option T} (t : SwitchState T), t.target = target →
      wp (endRollback faults moved) (.always fun u => u.target = target) t :=
    fun t ht => wp_endRollback (fun _ _ _ h => h) (fun _ h => h) (fun _ h => h) ht
  unfold rollback
  rw [wp_bind, wp_get]
  refine wp_beginRollback (P := fun t => t.target = s.target ∧ t.backup = s.backup)
    (fun _ _ => ⟨rfl, rfl⟩) (fun t ht => ?_) fun _ _ => trivial
  simp only [wp_ite, wp_bind, wp_pure]
  refine ⟨fun hswitched => ?_, fun hplain => ?_⟩
  · refine wp_mono wp_rollbackRoots_target (fun moved u hu => ?_) (fun _ _ _ => trivial)
      fun _ _ => trivial
    refine wp_mono (ended u hu) (fun _ v hv => ?_) (fun _ _ _ => trivial) fun _ _ => trivial
    refine Eq.trans hv ?_
    rw [ht.2]
    cases hdisk : s.record.backupRoot && s.backup.isSome with
    | true => rfl
    | false =>
      rw [hdisk, Bool.false_or] at hswitched
      simp [hswitched]
  · refine wp_mono (ended t ht.1) (fun _ v hv => ?_) (fun _ _ _ => trivial) fun _ _ => trivial
    simp only [Bool.or_eq_true, not_or, Bool.not_eq_true] at hplain
    refine Eq.trans hv ?_
    rw [hplain.1, hplain.2]
    rfl

/-- The condition is exact for one execution: a successful rollback of a saved record leaves the
original exactly when it read the directories right. -/
theorem rollback_target_iff (h : Sound original s) (hsaved : s.saved = some record)
    (hopen : record.state ≠ .rolledBack) (huncommitted : record.state ≠ .committed)
    (hok : (rollback isEmpty faults { s with record }).succeeded = true) :
    (rollback isEmpty faults { s with record }).state.target = some original ↔
      ReadsRight original s record := by
  constructor
  · intro htarget
    have hspec : (rollback isEmpty faults { s with record }).Meets _ := wp_rollback_target
    cases ho : rollback isEmpty faults { s with record } with
    | error e t | crash t => simp [ho, Outcome.succeeded] at hok
    | ok a t =>
      rw [ho] at hspec htarget
      have htarget' : some original =
          if record.backupRoot && s.backup.isSome then s.backup
          else if record.state.switched then none else s.target := htarget.symm.trans hspec
      cases hbackup : s.backup with
      | none =>
        refine .inr ⟨hbackup, ?_⟩
        cases hstate : record.state.switched with
        | false => rfl
        | true => simp [hbackup, hstate] at htarget'
      | some content =>
        have hroot : record.backupRoot = true := by
          rcases h with h | h | ⟨⟨r, hr, -, hnamed⟩, -⟩
          · exact (h.saved record hsaved).1
          · rw [h.backup] at hbackup
            cases hbackup
          · cases hsaved.symm.trans hr
            exact hnamed (by simp [hbackup])
        simp only [hbackup, hroot, isSome_some, Bool.and_self, if_true] at htarget'
        exact .inl (by rw [hbackup, ← htarget'])
  · intro hreads
    have hspec : (rollback isEmpty faults { s with record }).Meets _ :=
      wp_rollback (h.guarded hsaved hopen huncommitted hreads)
    cases ho : rollback isEmpty faults { s with record } with
    | error e t | crash t => simp [ho, Outcome.succeeded] at hok
    | ok a t =>
      rw [ho] at hspec
      exact hspec.target

def noRollbackFaults : RollbackFaults where
  putRollingBack := .none
  stopProcess := .none
  pin := .none
  lstat := .none
  renameFailed := .none
  renameBackup := .none
  runtime := .none
  putRolledBack := .none
  syncDir := .none
  removeFailed := .none

def switchedState : SwitchState Nat where
  target := some 2
  backup := some 1
  failed := none
  record := ⟨.filesystemSwitched, true⟩
  saved := some ⟨.filesystemSwitched, true⟩
  returned := []

theorem switchedState_target_iff :
    (rollback (fun _ => false) noRollbackFaults switchedState).state.target = some 1 ↔
      ReadsRight 1 switchedState switchedState.record := by
  have hbacked : Backed 1 switchedState :=
    ⟨rfl, by simp [switchedState], by simp [Honest, switchedState]⟩
  have hsaved : switchedState.saved = some switchedState.record := rfl
  exact rollback_target_iff (.inl hbacked) hsaved (by decide) (by decide) (by decide)

def noPrepareFaults (restored : Nat) : PrepareFaults Nat where
  putPreparing := .none
  stage := .none
  putBackup := .none
  renameBackup := .none
  materialize := .none
  partialCopy := none
  renameBack := .none
  syncDir := .none
  putSwitched := .none
  prepareRestore := .none
  putCreated := .none
  launch := .none
  putRunning := .none
  health := .none
  putValidated := .none
  restored := restored
  running := restored
  rollback := noRollbackFaults

def noCommitFaults : CommitFaults Nat where
  removeBackup := .none
  leftover := none
  putCommitted := .none

def crashingRun : List (SwitchAction Nat) :=
  [.prepare { noPrepareFaults 2 with launch := .crash },
   .restart false { noRollbackFaults with renameBackup := .crash } noCommitFaults,
   .restart false noRollbackFaults noCommitFaults,
   .rollback noRollbackFaults]

theorem crashingRun_restores_original :
    ∃ r, exec (SwitchRun.step (fun _ : Nat => false)) (.init 1) crashingRun = some r ∧
      r.state.returned = [some 1, some 1] ∧ ∀ target ∈ r.state.returned, target = some 1 := by
  exact exists_some_and (by decide) fun _ hr _ =>
    rollback_restores_original (by decide) hr

def rollingBackRun : List (SwitchAction Nat) :=
  [.prepare { noPrepareFaults 2 with
     stage := .fail, rollback := { noRollbackFaults with putRolledBack := .crash } },
   .restart false noRollbackFaults noCommitFaults]

/-- Recovery reads `ROLLING_BACK` as a switched filesystem, deletes the untouched original and
returns success. -/
theorem rollingBackRun_destroys_original :
    ∃ r, exec (SwitchRun.step (fun _ : Nat => false)) (.init 1) rollingBackRun = some r ∧
      r.up = true ∧ r.state.returned = [none] ∧ r.state.target = none ∧ r.state.backup = none ∧
      r.state.failed = none := by
  decide

end Shiftgate.Checkpoint
