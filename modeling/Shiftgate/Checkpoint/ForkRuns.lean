import Shiftgate.Checkpoint.Fork

/-! A fork is all or nothing as long as a crash does not fall between an effect and the record of
it. -/

namespace Shiftgate.Checkpoint.Forks

open Library World

structure NothingLeft (w : World) : Prop where
  root : w.root ≠ some .forked
  workload : w.workload.any (·.forked) = false
  tree : w.tree = false

/-- The fork is committed with its workload and root, or rolled back with nothing left, or it was
refused. -/
def Settled (w : World) : Prop :=
  match w.saved with
  | none => NothingLeft w
  | some r => r.state = .committed ∧ w.root = some .forked ∧ w.workload.isSome = true ∨
      r.state = .rolledBack ∧ NothingLeft w

instance (w : World) : Decidable (NothingLeft w) :=
  decidable_of_iff (w.root ≠ some .forked ∧ w.workload.any (·.forked) = false ∧ w.tree = false)
    ⟨fun ⟨h1, h2, h3⟩ => ⟨h1, h2, h3⟩, fun h => ⟨h.root, h.workload, h.tree⟩⟩

instance : DecidablePred Settled := fun w =>
  match h : w.saved with
  | none => decidable_of_iff (NothingLeft w) (by simp [Settled, h])
  | some r => decidable_of_iff (r.state = .committed ∧ w.root = some .forked ∧
      w.workload.isSome = true ∨ r.state = .rolledBack ∧ NothingLeft w) (by simp [Settled, h])

structure OwnOnly (w : World) : Prop where
  removed : ∀ d ∈ w.removed, d = .forked
  deleted : ∀ created ∈ w.deleted, created = true

/-- The record says what there is to undo, and the fork does not run uncommitted. -/
structure Recoverable (w : World) (r : ForkRecord) : Prop where
  workload : w.workload.any (·.forked) = true → r.createdWorkload = true
  tree : w.tree = true → w.alive = true
  checkpoint : r.forkCheckpoint = true → w.checkpoint = true
  running : r.state = .running → w.alive = false

instance (w : World) (r : ForkRecord) : Decidable (Recoverable w r) :=
  decidable_of_iff ((w.workload.any (·.forked) = true → r.createdWorkload = true) ∧
      (w.tree = true → w.alive = true) ∧ (r.forkCheckpoint = true → w.checkpoint = true) ∧
      (r.state = .running → w.alive = false))
    ⟨fun ⟨h1, h2, h3, h4⟩ => ⟨h1, h2, h3, h4⟩,
      fun h => ⟨h.workload, h.tree, h.checkpoint, h.running⟩⟩

def Task.isRollback : Task → Bool
  | .fork _ _ _ => false
  | .rollback _ _ => true

/-- A crash meets a recoverable or settled record, no directory appears at the root's path while the
fork is not settled, and no step of a rollback fails. -/
def Orderly (w : World) : Action → Prop
  | .restart => ∀ r ∈ w.saved, r.state = .committed ∨ r.state = .rolledBack ∨ Recoverable w r
  | .appear _ => w.task = none ∧ ∀ r ∈ w.saved, r.state = .rolledBack
  | .advance result => ∀ task ∈ w.task, task.isRollback = true → result = .ok
  | .request _ | .exit => True

instance (w : World) : DecidablePred (Orderly w)
  | .restart => inferInstanceAs (Decidable (∀ r ∈ w.saved,
      r.state = .committed ∨ r.state = .rolledBack ∨ Recoverable w r))
  | .appear _ => inferInstanceAs (Decidable (w.task = none ∧ ∀ r ∈ w.saved, r.state = .rolledBack))
  | .advance result =>
    inferInstanceAs (Decidable (∀ task ∈ w.task, task.isRollback = true → result = .ok))
  | .request _ | .exit => isTrue trivial

def ForkState.open : ForkState → Bool
  | .preparing | .materialized | .activating | .running | .rollingBack => true
  | .committed | .rolledBack | .failed => false

structure Unwindable (w : World) (r : ForkRecord) : Prop where
  root : w.root = none ∨ w.root = some .forked
  workload : ∀ x, w.workload = some x → x.forked = r.createdWorkload
  tree : w.tree = true → w.alive = true
  saved : ∃ r', w.saved = some r' ∧ r'.state.open = true ∧
    (r'.createdWorkload = true → r.createdWorkload = true)

def ForkPoint.placed : ForkPoint → Bool
  | .putRecord | .extract | .lstat | .materializeRoot => false
  | .syncDir | .prepareRestore | .putCreated | .captureFork | .putCheckpoint _ | .markCheckpoint
  | .toMaterialized | .toActivating | .criuRestore | .adoptRestored | .resume | .toRunning
  | .validate | .publish | .commit => true

def ForkPoint.registered : ForkPoint → Bool
  | .putRecord | .extract | .lstat | .materializeRoot | .syncDir | .prepareRestore => false
  | .putCreated | .captureFork | .putCheckpoint _ | .markCheckpoint | .toMaterialized
  | .toActivating | .criuRestore | .adoptRestored | .resume | .toRunning | .validate | .publish
  | .commit => true

/-- A fork before step `p`. Between the restore and the adoption the process is not in the runtime's
record. -/
structure Building (w : World) (p : ForkPoint) (r : ForkRecord) : Prop where
  state : r.state.open = true
  unwind : Unwindable (if p = .adoptRestored then w.endProcess else w) r
  placed : p.placed = true → w.root = some .forked
  registered : p.registered = true → w.workload.isSome = true
  unregistered : p.registered = false → r.createdWorkload = false
  checkpoint : r.forkCheckpoint = true → w.checkpoint = true

/-- A rollback before step `q`: what is undone so far. -/
structure Unwinding (w : World) (q : RollbackPoint) (r : ForkRecord) : Prop where
  unwind : Unwindable w r
  checkpoint : q = .putRollingBack ∨ q = .stop ∨ q = .deleteWorkload ∨ q = .deleteCheckpoint →
    r.forkCheckpoint = true → w.checkpoint = true
  stopped : q ≠ .putRollingBack → q ≠ .stop → w.tree = false
  deleted : q = .deleteCheckpoint ∨ q = .removeRoot ∨ q = .putRolledBack →
    w.workload.any (·.forked) = false
  removed : q = .putRolledBack → w.root = none

structure Starting (w : World) (r : ForkRecord) : Prop where
  saved : w.saved = none
  root : w.root = none
  nothing : NothingLeft w
  record : r = ⟨.preparing, false, false⟩

def Sound (w : World) : Prop :=
  OwnOnly w ∧
    match w.task with
    | none => Settled w
    | some (.fork _ .putRecord r) => Starting w r
    | some (.fork _ point r) => Building w point r
    | some (.rollback point r) => Unwinding w point r

variable {w : World} {p : ForkPoint} {r : ForkRecord} {activate : Bool} {result : Result}

theorem Sound.settled (h : Sound w) (htask : w.task = none) : Settled w := by
  have hpart := h.2
  rwa [htask] at hpart

theorem Sound.starting (h : Sound w) (htask : w.task = some (.fork activate .putRecord r)) :
    Starting w r := by
  have hpart := h.2
  rwa [htask] at hpart

theorem sound_iff_building (htask : w.task = some (.fork activate p r)) (hp : p ≠ .putRecord) :
    Sound w ↔ OwnOnly w ∧ Building w p r := by
  unfold Sound
  rw [htask]
  cases p with
  | putRecord => exact absurd rfl hp
  | _ => rfl

theorem Sound.building (h : Sound w) (htask : w.task = some (.fork activate p r))
    (hp : p ≠ .putRecord) : Building w p r :=
  ((sound_iff_building htask hp).mp h).2

variable {q : RollbackPoint} {p' : ForkPoint} {t : World}

theorem Sound.unwinding (h : Sound w) (htask : w.task = some (.rollback q r)) :
    Unwinding w q r := by
  have hpart := h.2
  rwa [htask] at hpart

section

variable (h : Unwindable w r)

include h

theorem Unwindable.start (hcheckpoint : r.forkCheckpoint = true → w.checkpoint = true)
    (hown : OwnOnly w) : Sound (w.unwind r) := by
  refine ⟨⟨hown.removed, hown.deleted⟩, ?_⟩
  exact ⟨⟨h.root, h.workload, h.tree, h.saved⟩, fun _ => hcheckpoint, fun hq => absurd rfl hq,
    nofun, nofun⟩

theorem Unwindable.state (state : ForkState) : Unwindable w { r with state } :=
  ⟨h.root, h.workload, h.tree, h.saved⟩

theorem Unwindable.task (task : Option Task) : Unwindable { w with task } r :=
  ⟨h.root, h.workload, h.tree, h.saved⟩

theorem Unwindable.put (hopen : r.state.open = true) : Unwindable (w.put r) r :=
  ⟨h.root, h.workload, h.tree, ⟨r, rfl, hopen, id⟩⟩

theorem Unwindable.not_tree (hw : w.workload.any (·.process) = false) : w.tree = false := by
  by_contra hne
  have halive := h.tree (by simpa using hne)
  cases hx : w.workload with
  | none => simp [alive, hx] at halive
  | some x =>
    rw [hx] at hw
    simp only [Option.any_some] at hw
    simp [alive, hx, hw] at halive

end

section

variable (hown : OwnOnly w)

include hown

theorem stop_sound (h : Unwinding w .stop r) : Sound (rollbackStep w r .ok .stop) := by
  have hcheckpoint := h.checkpoint (.inr (.inl rfl))
  by_cases hprocess : w.workload.any (·.process) = true
  · obtain ⟨⟨forked, process⟩, hw, hx⟩ := (Option.any_eq_true _ _).mp hprocess
    obtain rfl : process = true := hx
    have heq : rollbackStep w r .ok .stop = { w with
        task := some (.rollback .deleteWorkload r)
        tree := false
        workload := some ⟨forked, false⟩ } := by simp [rollbackStep, hw]
    rw [heq]
    refine ⟨⟨hown.removed, hown.deleted⟩, ⟨h.unwind.root, ?_, nofun, h.unwind.saved⟩,
      fun _ => hcheckpoint, fun _ _ => rfl, by simp, nofun⟩
    rintro _ ⟨⟩
    exact h.unwind.workload ⟨forked, true⟩ hw
  · have hnone : w.workload.any (·.process) = false := by simpa using hprocess
    have heq : rollbackStep w r .ok .stop =
        { w with task := some (.rollback .deleteWorkload r) } := by
      cases hw : w.workload with
      | none => simp [rollbackStep, hw]
      | some x =>
        obtain ⟨forked, process⟩ := x
        obtain rfl : process = false := by simpa [hw] using hnone
        simp [rollbackStep, hw]
    rw [heq]
    exact ⟨⟨hown.removed, hown.deleted⟩, h.unwind.task _, fun _ => hcheckpoint,
      fun _ _ => h.unwind.not_tree hnone, by simp, nofun⟩

theorem deleteWorkload_sound (h : Unwinding w .deleteWorkload r) :
    Sound (rollbackStep w r .ok .deleteWorkload) := by
  have htree := h.stopped (by decide) (by decide)
  have hcheckpoint := h.checkpoint (.inr (.inr (.inl rfl)))
  -- What is left is not the fork's when there is nothing to delete.
  have hkeep (hleft : w.workload.any (·.forked) = false)
      (heq : rollbackStep w r .ok .deleteWorkload =
        { w with task := some (.rollback .deleteCheckpoint r) }) :
      Sound (rollbackStep w r .ok .deleteWorkload) := by
    rw [heq]
    exact ⟨⟨hown.removed, hown.deleted⟩, h.unwind.task _, fun _ => hcheckpoint, fun _ _ => htree,
      fun _ => hleft, nofun⟩
  cases hw : w.workload with
  | none => exact hkeep (by simp [hw]) (by simp [rollbackStep, hw])
  | some x =>
    have howner := h.unwind.workload x hw
    cases hcreated : r.createdWorkload with
    | false =>
      exact hkeep (by simp [hw, howner, hcreated]) (by simp [rollbackStep, hw, hcreated])
    | true =>
      have heq : rollbackStep w r .ok .deleteWorkload = { w with
          task := some (.rollback .deleteCheckpoint r)
          workload := none
          deleted := x.forked :: w.deleted } := by
        simp [rollbackStep, hw, hcreated, alive, htree]
      rw [heq]
      refine ⟨⟨hown.removed, ?_⟩, ⟨h.unwind.root, nofun, fun ht => ?_, h.unwind.saved⟩,
        fun _ => hcheckpoint, fun _ _ => htree, fun _ => rfl, nofun⟩
      · intro created hmem
        rcases List.mem_cons.mp hmem with rfl | hmem
        · exact howner.trans hcreated
        · exact hown.deleted created hmem
      · exact absurd (htree.symm.trans ht) Bool.false_ne_true

theorem deleteCheckpoint_sound (h : Unwinding w .deleteCheckpoint r) :
    Sound (rollbackStep w r .ok .deleteCheckpoint) := by
  have htree := h.stopped (by decide) (by decide)
  have hdeleted := h.deleted (.inl rfl)
  cases hr : r.forkCheckpoint with
  | true =>
    have hcheckpoint := h.checkpoint (.inr (.inr (.inr rfl))) hr
    have heq : rollbackStep w r .ok .deleteCheckpoint = { w with
        checkpoint := false
        task := some (.rollback .removeRoot r) } := by simp [rollbackStep, hr, hcheckpoint]
    rw [heq]
    exact ⟨⟨hown.removed, hown.deleted⟩,
      ⟨h.unwind.root, h.unwind.workload, h.unwind.tree, h.unwind.saved⟩, by simp,
      fun _ _ => htree, fun _ => hdeleted, nofun⟩
  | false =>
    have heq : rollbackStep w r .ok .deleteCheckpoint =
        { w with task := some (.rollback .removeRoot r) } := by simp [rollbackStep, hr]
    rw [heq]
    exact ⟨⟨hown.removed, hown.deleted⟩, h.unwind.task _, by simp, fun _ _ => htree,
      fun _ => hdeleted, nofun⟩

theorem removeRoot_sound (h : Unwinding w .removeRoot r) :
    Sound (rollbackStep w r .ok .removeRoot) := by
  have htree := h.stopped (by decide) (by decide)
  have hdeleted := h.deleted (.inr (.inl rfl))
  refine ⟨⟨fun d hd => ?_, hown.deleted⟩, ⟨.inl rfl, h.unwind.workload, h.unwind.tree,
    h.unwind.saved⟩, by simp, fun _ _ => htree, fun _ => hdeleted, fun _ => rfl⟩
  rcases List.mem_append.mp hd with hd | hd
  · rcases h.unwind.root with hroot | hroot
    · simp [hroot] at hd
    · simpa [hroot] using hd
  · exact hown.removed d hd

theorem rollbackStep_sound (h : Unwinding w q r) : Sound (rollbackStep w r .ok q) := by
  cases q with
  | putRollingBack =>
    exact ⟨⟨hown.removed, hown.deleted⟩, ((h.unwind.state .rollingBack).put rfl).task _,
      fun _ => h.checkpoint (.inl rfl), fun _ hq => absurd rfl hq, nofun, nofun⟩
  | stop => exact stop_sound hown h
  | deleteWorkload => exact deleteWorkload_sound hown h
  | deleteCheckpoint => exact deleteCheckpoint_sound hown h
  | removeRoot => exact removeRoot_sound hown h
  | putRolledBack =>
    have hroot : w.root ≠ some .forked := by simp [h.removed rfl]
    exact ⟨⟨hown.removed, hown.deleted⟩, .inr ⟨rfl, hroot, h.deleted (.inr (.inr rfl)),
      h.stopped (by decide) (by decide)⟩⟩

end

section

variable (h : Building w p r)

include h

theorem Building.sound (hp : p ≠ .putRecord) (htask : w.task = some (.fork activate p r))
    (hown : OwnOnly w) : Sound w :=
  (sound_iff_building htask hp).mpr ⟨hown, h⟩

section

variable (hp : p ≠ .adoptRestored)

include hp

theorem Building.unwindable : Unwindable w r := by
  have hu := h.unwind
  rwa [if_neg hp] at hu

theorem Building.fail (hown : OwnOnly w) : Sound (w.unwind r) :=
  (h.unwindable hp).start h.checkpoint hown

theorem Building.next (hplaced : p'.placed = p.placed) (hregistered : p'.registered = p.registered)
    (hp' : p' ≠ .putRecord ∧ p' ≠ .adoptRestored) (hown : OwnOnly w) :
    Sound (w.next activate p' r) := by
  have hnext : Building (w.next activate p' r) p' r := by
    refine ⟨h.state, ?_, fun hpl => h.placed (hplaced ▸ hpl),
      fun hreg => h.registered (hregistered ▸ hreg),
      fun hreg => h.unregistered (hregistered ▸ hreg), h.checkpoint⟩
    rw [if_neg hp'.2]
    exact (h.unwindable hp).task _
  exact hnext.sound hp'.1 rfl ⟨hown.removed, hown.deleted⟩

theorem Building.put : Building (w.put r) p r := by
  refine ⟨h.state, ?_, h.placed, h.registered, h.unregistered, h.checkpoint⟩
  rw [if_neg hp]
  exact (h.unwindable hp).put h.state

end

theorem Building.target {state : ForkState} (hopen : state.open = true) :
    Building w p { r with state } := by
  refine ⟨hopen, ?_, h.placed, h.registered, h.unregistered, h.checkpoint⟩
  exact h.unwind.state state

theorem transition_sound (hp : p ≠ .adoptRestored) (hown : OwnOnly w) {target : ForkState}
    (hopen : target.open = true) (hplaced : p'.placed = p.placed)
    (hregistered : p'.registered = p.registered) (hp' : p' ≠ .putRecord ∧ p' ≠ .adoptRestored) :
    Sound (transition w r target result fun w r => w.next activate p' r) := by
  unfold transition
  split
  · exact h.fail hp hown
  · split
    · exact ((h.target hopen).put hp).next hp hplaced hregistered hp'
        ⟨hown.removed, hown.deleted⟩
    · exact (h.target hopen).fail hp hown

end

theorem Building.branch (h : Building w p r) (hp : p ≠ .adoptRestored) (p' : ForkPoint)
    (hplaced : p'.placed = p.placed) (hregistered : p'.registered = p.registered)
    (hp' : p' ≠ .putRecord ∧ p' ≠ .adoptRestored) (hown : OwnOnly w) {c : Prop} [Decidable c] :
    Sound (if c then w.next activate p' r else w.unwind r) := by
  split
  · exact h.next hp hplaced hregistered hp' hown
  · exact h.fail hp hown

theorem putRecord_sound (h : Starting w r) (hown : OwnOnly w) :
    Sound (forkStep w activate r result .putRecord) := by
  unfold forkStep
  simp only
  split
  · have hbuild : Building ((w.put r).next activate .extract r) .extract r := by
      obtain ⟨hroot, hworkload, htree⟩ := h.nothing
      have hr := h.record
      refine ⟨by rw [hr]; rfl, ?_, nofun, nofun, fun _ => by rw [hr], fun hc => ?_⟩
      · rw [if_neg (by decide)]
        refine ⟨.inl h.root, fun x hx => ?_, fun ht => ?_, ⟨r, rfl, by rw [hr]; rfl, id⟩⟩
        · have hx' : w.workload = some x := hx
          simpa [hx', hr] using hworkload
        · exact absurd (htree.symm.trans ht) Bool.false_ne_true
      · rw [hr] at hc
        cases hc
    exact hbuild.sound (by decide) rfl ⟨hown.removed, hown.deleted⟩
  · refine ⟨⟨hown.removed, hown.deleted⟩, ?_⟩
    have hsaved : w.done.saved = none := h.saved
    simp only [Settled, hsaved]
    exact ⟨h.nothing.root, h.nothing.workload, h.nothing.tree⟩

theorem materializeRoot_sound (h : Building w .materializeRoot r) (hown : OwnOnly w) :
    Sound (forkStep w activate r result .materializeRoot) := by
  unfold forkStep
  simp only
  split
  · have hu := h.unwindable (by decide)
    have hbuild : Building ({ w with root := some .forked }.next activate .syncDir r) .syncDir r :=
      ⟨h.state, ⟨.inr rfl, hu.workload, hu.tree, hu.saved⟩, fun _ => rfl, nofun,
        fun _ => h.unregistered rfl, h.checkpoint⟩
    exact hbuild.sound (by decide) rfl ⟨hown.removed, hown.deleted⟩
  · exact h.fail (by decide) hown

theorem prepareRestore_sound (h : Building w .prepareRestore r) (hown : OwnOnly w) :
    Sound (forkStep w activate r result .prepareRestore) := by
  have hu := h.unwindable (by decide)
  have hcreated := h.unregistered rfl
  unfold forkStep
  simp only
  split
  · split
    · obtain ⟨r', hr', hopen, hold⟩ := hu.saved
      have htree : w.tree = false := hu.not_tree (by simp_all)
      have hbuild : Building ({ w with workload := some ⟨true, false⟩ }.next activate .putCreated
          { r with createdWorkload := true }) .putCreated { r with createdWorkload := true } := by
        refine ⟨h.state, ⟨hu.root, ?_, fun ht => ?_, ⟨r', hr', hopen, fun _ => rfl⟩⟩,
          fun _ => h.placed rfl, fun _ => rfl, nofun, h.checkpoint⟩
        · rintro _ ⟨⟩
          rfl
        · exact absurd (htree.symm.trans ht) Bool.false_ne_true
      exact hbuild.sound (by decide) rfl ⟨hown.removed, hown.deleted⟩
    · rename_i x hx
      have hsame : { r with createdWorkload := false } = r := by rw [← hcreated]
      rw [hsame]
      have hbuild : Building (w.next activate .putCreated r) .putCreated r :=
        ⟨h.state, hu.task _, fun _ => h.placed rfl, fun _ => by simp [next, hx], nofun,
          h.checkpoint⟩
      exact hbuild.sound (by decide) rfl ⟨hown.removed, hown.deleted⟩
  · exact h.fail (by decide) hown

theorem captureFork_sound (h : Building w .captureFork r) (hown : OwnOnly w) :
    Sound (forkStep w activate r result .captureFork) := by
  unfold forkStep
  simp only
  split
  · exact h.fail (by decide) hown
  · have hu := h.unwindable (by decide)
    have hbuild : Building ({ w with checkpoint := true }.next activate
        (.putCheckpoint (result == Result.ok)) { r with forkCheckpoint := true })
        (.putCheckpoint (result == Result.ok)) { r with forkCheckpoint := true } :=
      ⟨h.state, ⟨hu.root, hu.workload, hu.tree, hu.saved⟩, fun _ => h.placed rfl,
        fun _ => h.registered rfl, nofun, fun _ => rfl⟩
    exact hbuild.sound (by simp) rfl ⟨hown.removed, hown.deleted⟩

theorem putCheckpoint_sound {mirrored : Bool} (h : Building w (.putCheckpoint mirrored) r)
    (hown : OwnOnly w) : Sound (forkStep w activate r result (.putCheckpoint mirrored)) := by
  have hput := h.put (by simp)
  unfold forkStep
  simp only
  split
  · split
    · exact hput.next (by simp) rfl rfl (by decide) ⟨hown.removed, hown.deleted⟩
    · exact hput.fail (by simp) ⟨hown.removed, hown.deleted⟩
  · exact h.fail (by simp) hown

theorem criuRestore_sound (h : Building w .criuRestore r) (hown : OwnOnly w) :
    Sound (forkStep w activate r result .criuRestore) := by
  unfold forkStep
  simp only
  split
  · have hu := h.unwindable (by decide)
    have hbuild : Building ({ w with tree := true }.next activate .adoptRestored r)
        .adoptRestored r :=
      ⟨h.state, ⟨hu.root, hu.workload, nofun, hu.saved⟩, fun _ => h.placed rfl,
        fun _ => h.registered rfl, nofun, h.checkpoint⟩
    exact hbuild.sound (by decide) rfl ⟨hown.removed, hown.deleted⟩
  · exact h.fail (by decide) hown

theorem adoptRestored_sound (h : Building w .adoptRestored r) (hown : OwnOnly w) :
    Sound (forkStep w activate r result .adoptRestored) := by
  have hu : Unwindable w.endProcess r := h.unwind
  unfold forkStep
  simp only
  split
  · rename_i x hx
    have hbuild : Building ({ w with workload := some { x with process := true } }.next activate
        .resume r) .resume r := by
      refine ⟨h.state, ⟨hu.root, ?_, fun ht => ?_, hu.saved⟩, fun _ => h.placed rfl,
        fun _ => rfl, nofun, h.checkpoint⟩
      · rintro _ ⟨⟩
        exact hu.workload x hx
      · have htree : w.tree = true := ht
        simp [alive, next, htree]
    exact hbuild.sound (by decide) rfl ⟨hown.removed, hown.deleted⟩
  · exact hu.start h.checkpoint ⟨hown.removed, hown.deleted⟩

theorem commit_sound (h : Building w .commit r) (hown : OwnOnly w) :
    Sound (forkStep w activate r result .commit) := by
  simp only [forkStep, transition]
  split
  · exact h.fail (by decide) hown
  · split
    · exact ⟨⟨hown.removed, hown.deleted⟩, .inl ⟨rfl, h.placed rfl, h.registered rfl⟩⟩
    · exact ((h.unwindable (by decide)).state .committed).start h.checkpoint hown

theorem forkStep_sound (h : Building w p r) (hp : p ≠ .putRecord) (hown : OwnOnly w) :
    Sound (forkStep w activate r result p) := by
  cases p with
  | putRecord => exact absurd rfl hp
  | extract => exact h.branch (by decide) .lstat rfl rfl (by decide) hown
  | lstat => exact h.branch (by decide) .materializeRoot rfl rfl (by decide) hown
  | materializeRoot => exact materializeRoot_sound h hown
  | syncDir => exact h.branch (by decide) .prepareRestore rfl rfl (by decide) hown
  | prepareRestore => exact prepareRestore_sound h hown
  | putCreated =>
    unfold forkStep
    simp only
    split
    · exact (h.put (by decide)).next (by decide) rfl rfl (by decide) ⟨hown.removed, hown.deleted⟩
    · exact h.fail (by decide) hown
  | captureFork => exact captureFork_sound h hown
  | putCheckpoint mirrored => exact putCheckpoint_sound h hown
  | markCheckpoint => exact h.branch (by decide) .toMaterialized rfl rfl (by decide) hown
  | toMaterialized =>
    cases activate with
    | true | false => exact transition_sound h (by decide) hown rfl rfl rfl (by decide)
  | toActivating | toRunning => exact transition_sound h (by decide) hown rfl rfl rfl (by decide)
  | criuRestore => exact criuRestore_sound h hown
  | adoptRestored => exact adoptRestored_sound h hown
  | resume => exact h.branch (by decide) .toRunning rfl rfl (by decide) hown
  | validate => exact h.branch (by decide) .publish rfl rfl (by decide) hown
  | publish => exact h.branch (by decide) .commit rfl rfl (by decide) hown
  | commit => exact commit_sound h hown

theorem Unwindable.exit (h : Unwindable w r) : Unwindable w.endProcess r :=
  ⟨h.root, h.workload, nofun, h.saved⟩

theorem Building.exit (h : Building w p r) : Unwindable w.endProcess r := by
  by_cases hp : p = .adoptRestored
  · have hu := h.unwind
    rwa [if_pos hp] at hu
  · exact (h.unwindable hp).exit

theorem Sound.cases (h : Sound w) :
    Settled w ∨ w.saved = none ∧ NothingLeft w ∨ ∃ r, Unwindable w.endProcess r := by
  cases htask : w.task with
  | none => exact .inl (h.settled htask)
  | some task =>
    cases task with
    | fork activate p r =>
      by_cases hp : p = .putRecord
      · subst hp
        have hstart := h.starting htask
        exact .inr (.inl ⟨hstart.saved, hstart.nothing⟩)
      · exact .inr (.inr ⟨r, (h.building htask hp).exit⟩)
    | rollback q r => exact .inr (.inr ⟨r, (h.unwinding htask).unwind.exit⟩)

theorem Sound.task_open (h : Sound w) (hsaved : w.saved = some r) (hopen : r.state.open = true) :
    ∃ r', Unwindable w.endProcess r' := by
  rcases h.cases with hsettled | ⟨hnone, _⟩ | hu
  · simp only [Settled, hsaved] at hsettled
    rcases hsettled with ⟨hstate, _⟩ | ⟨hstate, _⟩ <;> simp [hstate, ForkState.open] at hopen
  · exact absurd (hnone.symm.trans hsaved) nofun
  · exact hu

theorem Sound.task_closed (h : Sound w) (hclosed : ∀ r, w.saved = some r → r.state.open = false) :
    Settled w := by
  rcases h.cases with hsettled | ⟨hnone, hnothing⟩ | ⟨r, hu⟩
  · exact hsettled
  · simp only [Settled, hnone]
    exact hnothing
  · obtain ⟨r', hr', hopen, _⟩ := hu.saved
    rw [hclosed r' hr'] at hopen
    cases hopen

def reconcile (w : World) : World :=
  { w with workload := w.workload.map fun x => { x with process := x.process && w.tree } }

theorem reconcile_forked (w : World) :
    (reconcile w).workload.any (·.forked) = w.workload.any (·.forked) := by
  cases hw : w.workload <;> simp [reconcile, hw]

theorem reconcile_alive (w : World) : (reconcile w).alive = w.alive := by
  cases hw : w.workload <;> cases ht : w.tree <;> simp [reconcile, alive, hw, ht]

theorem NothingLeft.reconcile (h : NothingLeft w) : NothingLeft (reconcile w).done :=
  ⟨h.root, (reconcile_forked w).trans h.workload, h.tree⟩

theorem Settled.of_saved (h : Settled w) (hsaved : t.saved = w.saved)
    (hnothing : NothingLeft w → NothingLeft t)
    (hmade : w.root = some .forked → w.workload.isSome = true →
      t.root = some .forked ∧ t.workload.isSome = true) : Settled t := by
  unfold Settled at h ⊢
  rw [hsaved]
  cases hr : w.saved with
  | none =>
    rw [hr] at h
    exact hnothing h
  | some r =>
    rw [hr] at h
    exact h.imp (And.imp_right fun hm => hmade hm.1 hm.2) (And.imp_right hnothing)

theorem Settled.reconcile (h : Settled w) : Settled (Forks.reconcile w).done :=
  h.of_saved rfl NothingLeft.reconcile fun hroot hworkload =>
    ⟨hroot, by simpa [Forks.reconcile, done] using hworkload⟩

theorem Recoverable.unwindable {r' : ForkRecord} (h : Recoverable w r)
    (hu : Unwindable w.endProcess r') (hsaved : w.saved = some r) (hopen : r.state.open = true) :
    Unwindable (reconcile w) r := by
  refine ⟨hu.root, fun x hx => ?_, fun ht => ?_, ⟨r, hsaved, hopen, id⟩⟩
  · obtain ⟨y, hy, rfl⟩ := Option.map_eq_some_iff.mp hx
    have howner := hu.workload y hy
    obtain ⟨r'', hr'', _, hold⟩ := hu.saved
    obtain rfl : r'' = r := Option.some.inj (hr''.symm.trans hsaved)
    cases hf : y.forked with
    | true => exact (h.workload (by simp [hy, hf])).symm
    | false =>
      cases hc : r''.createdWorkload with
      | false => rfl
      | true => exact absurd (howner.trans (hold hc)) (by simp [hf])
  · rw [reconcile_alive]
    exact h.tree ht

theorem restart_sound (h : Sound w) (horderly : Orderly w .restart) : Sound (restart w) := by
  have hown : OwnOnly (reconcile w) := ⟨h.1.removed, h.1.deleted⟩
  -- A fork that is over stays so.
  have hover (hclosed : ∀ r, w.saved = some r → r.state.open = false)
      (heq : restart w = (reconcile w).done) : Sound (restart w) := by
    rw [heq]
    exact ⟨⟨hown.removed, hown.deleted⟩, (h.task_closed hclosed).reconcile⟩
  cases hsaved : w.saved with
  | none => exact hover (by simp [hsaved]) (by simp [restart, recover, reconcile, hsaved])
  | some r =>
    cases hopen : r.state.open with
    | false =>
      refine hover (by simp [hsaved, hopen]) ?_
      cases hstate : r.state <;> simp [hstate, ForkState.open] at hopen <;>
        simp [restart, recover, reconcile, hsaved, hstate]
    | true =>
      obtain ⟨r', hu⟩ := h.task_open hsaved hopen
      have hrec : Recoverable w r := by
        rcases horderly r hsaved with hstate | hstate | hrec
        · simp [hstate, ForkState.open] at hopen
        · simp [hstate, ForkState.open] at hopen
        · exact hrec
      have heq : restart w = (reconcile w).unwind r := by
        have halive : r.state = .running → (reconcile w).alive = false := fun hrunning =>
          (reconcile_alive w).trans (hrec.running hrunning)
        unfold restart recover
        rw [show ({ w with workload := w.workload.map fun x =>
          { x with process := x.process && w.tree } } : World) = reconcile w from rfl]
        have hsaved' : (reconcile w).saved = some r := hsaved
        cases hstate : r.state <;> simp [hstate, ForkState.open] at hopen <;>
          simp [hsaved', hstate, halive]
      rw [heq]
      exact (hrec.unwindable hu hsaved hopen).start hrec.checkpoint hown

theorem NothingLeft.settled (h : Settled w)
    (hsaved : ∀ r, w.saved = some r → r.state = .rolledBack) : NothingLeft w := by
  unfold Settled at h
  cases hr : w.saved with
  | none =>
    rw [hr] at h
    exact h
  | some r =>
    rw [hr] at h
    rcases h with ⟨hstate, _⟩ | ⟨_, hnothing⟩
    · exact absurd (hstate.symm.trans (hsaved r hr)) nofun
    · exact hnothing

theorem Settled.exit (h : Settled w) : Settled w.endProcess :=
  h.of_saved rfl (fun hnothing => ⟨hnothing.root, hnothing.workload, rfl⟩) .intro

theorem exit_sound (h : Sound w) : Sound w.endProcess := by
  have hown : OwnOnly w.endProcess := ⟨h.1.removed, h.1.deleted⟩
  cases htask : w.task with
  | none =>
    refine ⟨hown, ?_⟩
    rw [show w.endProcess.task = none from htask]
    exact (h.settled htask).exit
  | some task =>
    cases task with
    | fork activate p r =>
      by_cases hp : p = .putRecord
      · subst hp
        obtain ⟨hsaved, hroot, hnothing, hrecord⟩ := h.starting htask
        refine ⟨hown, ?_⟩
        rw [show w.endProcess.task = _ from htask]
        exact ⟨hsaved, hroot, ⟨hnothing.root, hnothing.workload, rfl⟩, hrecord⟩
      · have hb := h.building htask hp
        have hb' : Building w.endProcess p r :=
          ⟨hb.state, by split <;> exact hb.exit, hb.placed, hb.registered, hb.unregistered,
            hb.checkpoint⟩
        exact hb'.sound hp htask hown
    | rollback q r =>
      have hq := h.unwinding htask
      refine ⟨hown, ?_⟩
      rw [show w.endProcess.task = _ from htask]
      exact ⟨hq.unwind.exit, hq.checkpoint, fun _ _ => rfl, hq.deleted, hq.removed⟩

theorem appear_sound {empty : Bool} (h : Sound w) (horderly : Orderly w (.appear empty)) :
    Sound (w.occupy empty) := by
  obtain ⟨htask, hsaved⟩ := horderly
  have hnothing := NothingLeft.settled (h.settled htask) hsaved
  refine ⟨⟨h.1.removed, h.1.deleted⟩, ?_⟩
  rw [show (w.occupy empty).task = none from htask]
  have hleft : NothingLeft (w.occupy empty) :=
    ⟨by simp [occupy], hnothing.workload, hnothing.tree⟩
  unfold Settled
  rw [show (w.occupy empty).saved = w.saved from rfl]
  cases hr : w.saved with
  | none => exact hleft
  | some r => exact .inr ⟨hsaved r hr, hleft⟩

theorem request_sound (h : Sound w) (htask : w.task = none) (hsaved : w.saved = none)
    (hroot : w.root = none) : Sound (w.next activate .putRecord ⟨.preparing, false, false⟩) := by
  have hnothing := NothingLeft.settled (h.settled htask) (by simp [hsaved])
  exact ⟨⟨h.1.removed, h.1.deleted⟩, hsaved, hroot,
    ⟨hnothing.root, hnothing.workload, hnothing.tree⟩, rfl⟩

theorem step_sound {a : Action} (h : Sound w) (horderly : Orderly w a) (hstep : step w a = some t) :
    Sound t := by
  cases a with
  | request activate =>
    simp only [step] at hstep
    split at hstep
    · rename_i hidle
      split at hstep
      · rename_i hroot
        cases hstep
        exact request_sound h hidle.1 hidle.2 hroot
      · cases hstep
        exact h
    · cases hstep
  | advance result =>
    cases htask : w.task with
    | none => simp [step, htask] at hstep
    | some task =>
      cases task with
      | fork activate p r =>
        simp only [step, htask] at hstep
        cases hstep
        by_cases hp : p = .putRecord
        · subst hp
          exact putRecord_sound (h.starting htask) h.1
        · exact forkStep_sound (h.building htask hp) hp h.1
      | rollback q r =>
        simp only [step, htask] at hstep
        cases hstep
        obtain rfl := horderly _ htask rfl
        exact rollbackStep_sound h.1 (h.unwinding htask)
  | restart =>
    cases hstep
    exact restart_sound h horderly
  | appear empty =>
    simp only [step] at hstep
    split at hstep
    · cases hstep
      exact appear_sound h horderly
    · cases hstep
  | exit =>
    cases hstep
    exact exit_sound h

theorem initial_sound (root : Option Bool) (workload : Bool) : Sound (initial root workload) := by
  refine ⟨⟨nofun, nofun⟩, ⟨?_, ?_, rfl⟩⟩
  · cases root <;> simp [initial]
  · cases workload <;> simp [initial]

def ForkPoint.rank : ForkPoint → Nat
  | .putRecord => 25
  | .extract => 24
  | .lstat => 23
  | .materializeRoot => 22
  | .syncDir => 21
  | .prepareRestore => 20
  | .putCreated => 19
  | .captureFork => 18
  | .putCheckpoint _ => 17
  | .markCheckpoint => 16
  | .toMaterialized => 15
  | .toActivating => 14
  | .criuRestore => 13
  | .adoptRestored => 12
  | .resume => 11
  | .toRunning => 10
  | .validate => 9
  | .publish => 8
  | .commit => 7

def RollbackPoint.rank : RollbackPoint → Nat
  | .putRollingBack => 6
  | .stop => 5
  | .deleteWorkload => 4
  | .deleteCheckpoint => 3
  | .removeRoot => 2
  | .putRolledBack => 1

/-- A bound on the steps that a task still takes. -/
def rank : Option Task → Nat
  | none => 0
  | some (.fork _ point _) => point.rank
  | some (.rollback point _) => point.rank

theorem rank_le (task : Option Task) : rank task ≤ 25 := by
  cases task with
  | none => exact Nat.zero_le _
  | some task =>
    cases task with
    | fork activate p r => cases p <;> simp [rank, ForkPoint.rank]
    | rollback q r => cases q <;> simp [rank, RollbackPoint.rank]

theorem forkStep_rank (w : World) (activate : Bool) (r : ForkRecord) (result : Result)
    (p : ForkPoint) : rank (forkStep w activate r result p).task < p.rank := by
  cases p <;> simp only [forkStep, transition] <;> (repeat' split) <;>
    simp [next, unwind, done, put, rank, ForkPoint.rank, RollbackPoint.rank]

theorem rollbackStep_rank (w : World) (r : ForkRecord) (result : Result) (q : RollbackPoint) :
    rank (rollbackStep w r result q).task < q.rank := by
  cases q <;> simp only [rollbackStep] <;> (repeat' split) <;>
    simp [done, put, rank, RollbackPoint.rank]

theorem advance_rank (result : Result) (htask : w.task ≠ none) :
    ∃ t, step w (.advance result) = some t ∧ rank t.task < rank w.task := by
  cases h : w.task with
  | none => exact absurd h htask
  | some task =>
    cases task with
    | fork activate p r =>
      exact ⟨forkStep w activate r result p, by simp [step, h], forkStep_rank w activate r result p⟩
    | rollback q r =>
      exact ⟨rollbackStep w r result q, by simp [step, h], rollbackStep_rank w r result q⟩

theorem task_ends {results : List Result} (h : rank w.task ≤ results.length) :
    ∃ n t, exec step w ((results.take n).map .advance) = some t ∧ t.task = none := by
  induction results generalizing w with
  | nil =>
    refine ⟨0, w, rfl, ?_⟩
    cases htask : w.task with
    | none => rfl
    | some task =>
      rw [htask] at h
      cases task with
      | fork activate p r => cases p <;> simp [rank, ForkPoint.rank] at h
      | rollback q r => cases q <;> simp [rank, RollbackPoint.rank] at h
  | cons result rest ih =>
    by_cases htask : w.task = none
    · exact ⟨0, w, rfl, htask⟩
    · obtain ⟨m, hstep, hrank⟩ := advance_rank result htask
      obtain ⟨n, t, hrun, hend⟩ := @ih m (by simp only [List.length_cons] at h; omega)
      refine ⟨n + 1, t, ?_, hend⟩
      rw [List.take_succ_cons, List.map_cons]
      exact exec_cons.mpr ⟨m, hstep, hrun⟩

namespace Sample

def steps (n : Nat) : List Action := List.replicate n (.advance .ok)

def interrupted : List Action := [.request true] ++ steps 8 ++ [.restart] ++ steps 6 ++ [.restart]

def taken : List Action := [.request false] ++ steps 1 ++ [.appear false] ++ steps 8

def unrecorded : List Action := [.request false] ++ steps 6 ++ [.restart] ++ steps 6

def unadopted : List Action := [.request true] ++ steps 13 ++ [.restart] ++ steps 6

def uncommitted : List Action := [.request true] ++ steps 16 ++ [.restart]

def stuck : List Action :=
  [.request false] ++ steps 9 ++ [.restart] ++ steps 4 ++ [.restart] ++ steps 4

end Sample

end Shiftgate.Checkpoint.Forks
