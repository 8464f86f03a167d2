import Shiftgate.Library.Runs
import Shiftgate.Checkpoint.Switch

/-! Where the original root is during a restore: until a commit starts to drop it, whole in the
backup (`Backed`) or in place at the target (`Restored`). A rollback that finds no backup and a
record in a switched state moves the original aside and deletes it. -/

namespace Shiftgate.Checkpoint

open Library Option Program

variable {T : Type} {isEmpty : T → Bool} {original : T} {s : SwitchState T}

/-- Every rollback that returned success left the original at the target. -/
def Honest (original : T) (s : SwitchState T) : Prop := ∀ x ∈ s.returned, x = some original

structure Backed (original : T) (s : SwitchState T) : Prop where
  backup : s.backup = some original
  saved : ∀ r, s.saved = some r → r.backupRoot = true ∧ r.state ≠ .rolledBack
  honest : Honest original s

structure Restored (original : T) (s : SwitchState T) : Prop where
  target : s.target = some original
  backup : s.backup = none
  honest : Honest original s

structure Late (original : T) (s : SwitchState T) : Prop where
  saved : ∃ r, s.saved = some r ∧ (r.state = .validated ∨ r.state = .committed) ∧
    (s.backup.isSome = true → r.backupRoot = true)
  honest : Honest original s

def Sound (original : T) (s : SwitchState T) : Prop :=
  Backed original s ∨ Restored original s ∨ Late original s

def Guarded (original : T) (s : SwitchState T) : Prop :=
  (Backed original s ∧ s.record.backupRoot = true) ∨
    (Restored original s ∧ s.record.state.switched = false)

def Kept (original : T) (s : SwitchState T) : Prop := Backed original s ∨ Restored original s

theorem Kept.sound (h : Kept original s) : Sound original s := h.imp_right .inl

variable {faults : RollbackFaults} {P : SwitchState T → Prop} {fault : Fault}
  {post : Post (SwitchState T) String Unit} {moved : Bool} {e : String}

theorem wp_removeFailedRoot (h : P s) (hgone : P { s with failed := none }) :
    wp (removeFailedRoot faults) (.always P) s := by
  simp only [removeFailedRoot, wp_bind, wp_attempt, wp_effect]
  exact ⟨fun _ => hgone, fun _ => h, fun _ => h⟩

theorem wp_renameWithin {old new : Name} (hstop : (∀ e, post.error e s) ∧ post.crash s)
    (hok : ∀ content, s.get old = some content →
      post.ok () ((s.set new (some content)).set old none)) :
    wp (renameWithin isEmpty fault old new) post s := by
  simp only [renameWithin, wp_bind, wp_get]
  cases hold : s.get old with
  | none => exact hstop.1 _
  | some content =>
    simp only [wp_ite, wp_throw, wp_effect]
    exact ⟨fun _ => hstop.1 _, fun _ => ⟨fun _ => hok content hold, fun _ => hstop.1 _,
      fun _ => hstop.2⟩⟩

theorem wp_moveAside (h : Backed original s) :
    wp (moveAside isEmpty faults) (.always (Backed original)) s := by
  simp only [moveAside, wp_bind, wp_get, wp_ite]
  refine ⟨fun _ => ?_, fun _ => h⟩
  exact wp_renameWithin ⟨fun _ => h, h⟩ fun content _ => ⟨h.backup, h.saved, h.honest⟩

theorem wp_restoreBackup (h : Backed original s) :
    wp (restoreBackup isEmpty faults moved)
      { ok := fun _ t => Restored original t
        error := fun _ t => Backed original t
        crash := fun t => Backed original t } s := by
  simp only [restoreBackup, wp_bind, wp_attempt]
  refine wp_renameWithin ⟨fun e => ?_, h⟩ fun content hcontent => ?_
  · simp only [wp_bind, wp_onlyIf]
    refine ⟨fun _ => ?_, fun _ => h⟩
    exact wp_mono (wp_removeFailedRoot h ⟨h.backup, h.saved, h.honest⟩) (fun _ _ ht => ht)
      (fun _ _ ht => ht) fun _ ht => ht
  · have hbackup : content = original := some.inj (hcontent.symm.trans h.backup)
    subst hbackup
    exact ⟨rfl, rfl, h.honest⟩

theorem wp_rollbackRoots (h : Backed original s) :
    wp (rollbackRoots isEmpty faults true)
      { ok := fun _ t => Restored original t
        error := fun _ t => Backed original t
        crash := fun t => Backed original t } s := by
  simp only [rollbackRoots, wp_bind]
  refine wp_effect_id (fun _ => ?_) fun _ => ⟨h, h⟩
  simp only [wp_bind]
  refine wp_effect_id (fun _ => ?_) fun _ => ⟨h, h⟩
  simp only [wp_bind]
  refine wp_mono (wp_moveAside h) (fun moved t ht => ?_) (fun _ _ ht => ht) fun _ ht => ht
  simp only [if_true, wp_bind]
  exact wp_restoreBackup ht

theorem wp_endRollback (hsaved : ∀ t record saved, P t → P { t with record, saved })
    (hfailed : ∀ t, P t → P { t with failed := none })
    (hreturn : ∀ t, P t → P { t with returned := t.target :: t.returned }) (h : P s) :
    wp (endRollback faults moved) (.always P) s := by
  have finish : wp (finishRollback faults) (.always P) s := by
    simp only [finishRollback, wp_bind, wp_point]
    refine ⟨fun _ => ?_, fun _ => h⟩
    simp only [setState, putRecord, wp_bind, wp_modify, wp_effect]
    refine ⟨fun _ => ?_, fun _ => hsaved s _ _ h, fun _ => hsaved s _ _ h⟩
    exact ⟨fun _ => hsaved s _ _ h, fun _ => hsaved s _ _ h, fun _ => hsaved s _ _ h⟩
  have report : ∀ (result : Except String Unit) (t : SwitchState T), P t →
      wp (do
        liftExcept result
        modify fun s => { s with returned := s.target :: s.returned }) (.always P) t := by
    intro result t ht
    cases result with
    | error e => exact ht
    | ok _ => exact hreturn t ht
  have tail : ∀ (result : Except String Unit) (t : SwitchState T), P t →
      wp (do
        onlyIf moved (removeFailedRoot faults)
        liftExcept result
        modify fun s => { s with returned := s.target :: s.returned }) (.always P) t := by
    intro result t ht
    rw [wp_bind, wp_onlyIf]
    refine ⟨fun _ => ?_, fun _ => report result t ht⟩
    exact wp_mono (wp_removeFailedRoot ht (hfailed t ht)) (fun _ u hu => report result u hu)
      (fun _ _ hu => hu) fun _ hu => hu
  unfold endRollback
  rw [wp_bind, wp_attempt]
  exact wp_mono finish (fun _ t ht => tail _ t ht) (fun _ t ht => tail _ t ht) fun _ ht => ht

theorem Restored.return (h : Restored original s) :
    Restored original { s with returned := s.target :: s.returned } := by
  refine ⟨h.target, h.backup, fun x hx => ?_⟩
  rcases List.mem_cons.mp hx with rfl | hx
  · exact h.target
  · exact h.honest x hx

theorem wp_endRollback_restored (h : Restored original s) :
    wp (endRollback faults moved) (.always (Restored original)) s :=
  wp_endRollback (fun _ _ _ h => ⟨h.target, h.backup, h.honest⟩)
    (fun _ h => ⟨h.target, h.backup, h.honest⟩) (fun _ h => h.return) h

theorem wp_beginRollback {rest : Program (SwitchState T) String Unit}
    (hP : ∀ saved, (saved = s.saved ∨ saved = some { s.record with state := .rollingBack }) →
      P { s with record := { s.record with state := .rollingBack }, saved })
    (hrest : ∀ t, P t → wp rest post t) (hcrash : ∀ t, P t → post.crash t) :
    wp (do
      setState .rollingBack
      let _ ← attempt (putRecord faults.putRollingBack)
      point faults.stopProcess
      rest) post s := by
  have skipped := hP s.saved (.inl rfl)
  have written := hP _ (.inr rfl)
  have pointed : ∀ t, P t → wp (do point faults.stopProcess; rest) post t := by
    intro t ht
    rw [wp_bind, wp_point]
    exact ⟨fun _ => hrest t ht, fun _ => hcrash t ht⟩
  simp only [setState, putRecord]
  rw [wp_bind, wp_modify]
  simp only [wp_bind, wp_attempt, wp_effect]
  exact ⟨fun _ => wp_bind .. |>.mp (pointed _ written),
    fun _ => wp_bind .. |>.mp (pointed _ skipped), fun _ => hcrash _ skipped⟩

/-- A rollback that reads the directories right never loses the original, and succeeds only with it
in place. -/
theorem wp_rollback (h : Guarded original s) :
    wp (rollback isEmpty faults)
      { ok := fun _ t => Restored original t
        error := fun _ t => Kept original t
        crash := fun t => Kept original t } s := by
  unfold rollback
  rw [wp_bind, wp_get]
  rcases h with ⟨hbacked, hnamed⟩ | ⟨hrestored, hstate⟩
  · -- The backup is on disk.
    refine wp_beginRollback (P := Backed original) ?_ ?_ fun _ ht => .inl ht
    · intro saved hsaved
      refine ⟨hbacked.backup, fun r hr => ?_, hbacked.honest⟩
      rcases hsaved with rfl | rfl
      · exact hbacked.saved r hr
      · cases hr
        exact ⟨hnamed, by simp⟩
    · intro t ht
      simp only [hnamed, hbacked.backup, isSome_some, Bool.and_self, Bool.true_or, if_true, wp_bind]
      refine wp_mono (wp_rollbackRoots ht) (fun moved u hu => ?_) (fun _ _ hu => .inl hu)
        fun _ hu => .inl hu
      exact wp_mono (wp_endRollback_restored hu) (fun _ _ hv => hv) (fun _ _ hv => .inr hv)
        fun _ hv => .inr hv
  · -- There is no backup, and the record was still preparing.
    refine wp_beginRollback (P := Restored original) ?_ ?_ fun _ ht => .inr ht
    · intro saved _
      exact ⟨hrestored.target, hrestored.backup, hrestored.honest⟩
    · intro t ht
      simp only [hrestored.backup, hstate, isSome_none, Bool.and_false, Bool.or_self,
        Bool.false_eq_true, if_false, wp_bind, wp_pure]
      exact wp_mono (wp_endRollback_restored ht) (fun _ _ hv => hv) (fun _ _ hv => .inr hv)
        fun _ hv => .inr hv

def switchPost (original : T) : Post (SwitchState T) String Unit where
  ok := fun _ t => Backed original t ∧ t.record.backupRoot = true
  error := fun _ t => Guarded original t
  crash := fun t => Kept original t

theorem wp_activateRoot {faults : PrepareFaults T} (h : Backed original s)
    (hnamed : s.record.backupRoot = true) (hstate : s.record.state = .preparing) :
    wp (activateRoot isEmpty faults) (switchPost original) s := by
  have moved : ∀ target, Backed original { s with target } :=
    fun _ => ⟨h.backup, h.saved, h.honest⟩
  unfold activateRoot
  cases faults.materialize with
  | none => exact ⟨moved _, hnamed⟩
  | crash => exact .inl (moved _)
  | fail =>
    simp only [wp_bind, wp_modify, wp_get, wp_onlyIf, hnamed]
    refine ⟨fun _ => ?_, by simp⟩
    refine wp_renameWithin ⟨fun _ => .inl ⟨moved _, hnamed⟩, .inl (moved _)⟩ fun content hc => ?_
    -- The rename back puts the original in place while the record is still preparing.
    have hcontent : content = original := some.inj (hc.symm.trans h.backup)
    subst hcontent
    exact .inr ⟨⟨rfl, rfl, h.honest⟩, by simp [SwitchState.set, hstate, RestoreState.switched]⟩

theorem wp_switchRoot {faults : PrepareFaults T} (h : Restored original s)
    (hrecord : s.record = { state := .preparing, backupRoot := true }) :
    wp (switchRoot isEmpty faults) (switchPost original) s := by
  have guarded : ∀ saved backupRoot,
      Guarded original { s with record := { s.record with backupRoot }, saved } := by
    intro saved backupRoot
    refine .inr ⟨⟨h.target, h.backup, h.honest⟩, ?_⟩
    simp [hrecord, RestoreState.switched]
  have kept : ∀ saved record, Kept original { s with record, saved } :=
    fun _ _ => .inr ⟨h.target, h.backup, h.honest⟩
  simp only [switchRoot, wp_bind]
  refine wp_effect_id (fun _ => ?_) fun _ => ⟨?_, .inr h⟩
  · simp only [setBackupRoot, putRecord, wp_bind, wp_modify, wp_effect]
    refine ⟨fun _ => ?_, fun _ => guarded _ _, fun _ => kept _ _⟩
    simp only [wp_attempt]
    refine wp_renameWithin ⟨fun _ => guarded _ _, kept _ _⟩ fun content hc => ?_
    have hcontent : content = original := some.inj (hc.symm.trans h.target)
    subst hcontent
    refine wp_activateRoot ⟨rfl, ?_, h.honest⟩ rfl (by simp [SwitchState.set, hrecord])
    rintro r ⟨⟩
    simp [hrecord]
  · have := guarded s.saved s.record.backupRoot
    exact this

structure Running (original : T) (s : SwitchState T) : Prop where
  backed : Backed original s
  named : s.record.backupRoot = true
  state : s.record.state ≠ .rolledBack

theorem Running.guarded (h : Running original s) : Guarded original s := .inl ⟨h.backed, h.named⟩

def runningPost (original : T) : Post (SwitchState T) String Unit where
  ok := fun _ t => Running original t
  error := fun _ t => Guarded original t
  crash := fun t => Kept original t

section

variable (h : Running original s)

include h

theorem wp_setState_running {state : RestoreState} (hstate : state ≠ .rolledBack) :
    wp (setState state) (runningPost original) s :=
  ⟨⟨h.backed.backup, h.backed.saved, h.backed.honest⟩, h.named, hstate⟩

theorem wp_putRecord_running : wp (putRecord fault) (runningPost original) s := by
  rw [putRecord, wp_effect]
  refine ⟨fun _ => ⟨⟨h.backed.backup, ?_, h.backed.honest⟩, h.named, h.state⟩,
    fun _ => h.guarded, fun _ => .inl h.backed⟩
  rintro r ⟨⟩
  exact ⟨h.named, h.state⟩

theorem wp_effect_running : wp (effect fault e id) (runningPost original) s :=
  wp_effect_id (fun _ => h) fun _ => ⟨h.guarded, .inl h.backed⟩

theorem wp_launch_running {tree : T} :
    wp (effect fault e fun s => { s with target := some tree }) (runningPost original)
      s := by
  rw [wp_effect]
  exact ⟨fun _ => ⟨⟨h.backed.backup, h.backed.saved, h.backed.honest⟩, h.named, h.state⟩,
    fun _ => h.guarded, fun _ => .inl h.backed⟩

end

theorem wp_runRestored {faults : PrepareFaults T} (h : Backed original s)
    (hnamed : s.record.backupRoot = true) : wp (runRestored faults) (runningPost original) s := by
  unfold runRestored
  refine wp_seq (Running original) ?_ fun _ t ht => ?_
  · exact ⟨⟨h.backup, h.saved, h.honest⟩, hnamed, by simp⟩
  refine wp_seq _ (wp_effect_running ht) fun _ t ht => ?_
  refine wp_seq _ (wp_putRecord_running ht) fun _ t ht => ?_
  refine wp_seq _ (wp_effect_running ht) fun _ t ht => ?_
  refine wp_seq _ (wp_putRecord_running ht) fun _ t ht => ?_
  refine wp_seq _ (wp_launch_running ht) fun _ t ht => ?_
  refine wp_seq _ (wp_setState_running ht (by simp)) fun _ t ht => ?_
  refine wp_seq _ (wp_putRecord_running ht) fun _ t ht => ?_
  refine wp_seq _ (wp_effect_running ht) fun _ t ht => ?_
  refine wp_seq _ (wp_setState_running ht (by simp)) fun _ t ht => ?_
  exact wp_putRecord_running ht

theorem wp_prepare {faults : PrepareFaults T} (h : Restored original s) :
    wp (prepare isEmpty faults) (.always (Kept original)) s := by
  have started : ∀ record saved, Restored original { s with record, saved } :=
    fun _ _ => ⟨h.target, h.backup, h.honest⟩
  unfold prepare
  rw [wp_bind, wp_modify]
  simp only [putRecord, wp_bind, wp_effect]
  refine ⟨fun _ => ?_, fun _ => .inr (started _ _), fun _ => .inr (started _ _)⟩
  simp only [wp_bind, wp_attempt]
  refine wp_mono (wp_switchRoot (started _ _) rfl) (fun _ t ht => ?_) (fun _ t ht => ?_)
    fun _ ht => ht
  · refine wp_mono (wp_runRestored ht.1 ht.2) (fun _ u hu => .inl hu.backed) (fun _ u hu => ?_)
      fun _ hu => hu
    simp only [wp_bind, wp_attempt]
    exact wp_mono (wp_rollback hu) (fun _ _ hv => .inr hv) (fun _ _ hv => hv) fun _ hv => hv
  · simp only [wp_bind, wp_attempt]
    exact wp_mono (wp_rollback ht) (fun _ _ hv => .inr hv) (fun _ _ hv => hv) fun _ hv => hv

/-- A commit keeps a restore sound; only for a validated one it ends the promise about the backup.
-/
theorem wp_commit {faults : CommitFaults T} (h : Sound original s) :
    wp (commit faults) (.always (Sound original)) s := by
  have honest : Honest original s := by
    rcases h with h | h | h <;> exact h.honest
  have named : ∀ r, s.saved = some r → r.state = .validated → s.backup.isSome = true →
      r.backupRoot = true := by
    intro r hr _ hb
    rcases h with h | h | ⟨⟨r', hr', -, hnamed⟩, -⟩
    · exact (h.saved r hr).1
    · simp [h.backup] at hb
    · cases hr.symm.trans hr'
      exact hnamed hb
  simp only [commit, wp_bind, wp_get]
  cases hsaved : s.saved with
  | none => exact h
  | some r =>
    simp only [wp_ite, wp_throw, wp_pure, wp_bind, wp_onlyIf]
    refine ⟨fun _ => h, fun _ => ⟨fun _ => h, fun hvalidated => ?_⟩⟩
    have hstate : r.state = .validated := not_not.mp hvalidated
    -- Whatever the removal leaves, the saved record stays validated until it says committed.
    have late : ∀ backup record, (backup.isSome = true → r.backupRoot = true) →
        Sound original { s with backup, record } :=
      fun _ _ hb => .inr (.inr ⟨⟨r, hsaved, .inl hstate, hb⟩, honest⟩)
    have put : ∀ backup, (backup.isSome = true → r.backupRoot = true) →
        wp (do
          modify fun s : SwitchState T =>
            { s with record := { r with state := .committed } }
          putRecord faults.putCommitted) (.always (Sound original)) { s with backup } := by
      intro backup hb
      simp only [putRecord, wp_bind, wp_modify, wp_effect]
      exact ⟨fun _ => .inr (.inr ⟨⟨_, rfl, .inr rfl, hb⟩, honest⟩), fun _ => late _ _ hb,
        fun _ => late _ _ hb⟩
    refine ⟨fun hroot => ?_, fun _ => ?_⟩
    · unfold removeBackup wp
      cases faults.removeBackup with
      | none => exact wp_bind .. |>.mp (put none (by simp))
      | fail | crash => exact late _ _ fun _ => hroot
    · exact wp_bind .. |>.mp (put s.backup (named r hsaved hstate))

end Shiftgate.Checkpoint
