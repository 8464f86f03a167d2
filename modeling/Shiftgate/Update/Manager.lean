import Shiftgate.Library.Runs

/-! The update manager of `internal/update`: the version it records for a binary that it preserves.
Releases are compared by precedence. -/

namespace Shiftgate.Update

open Library

structure Backup (V : Type) where
  id : String
  version : V
  reports : V

structure Machine (V : Type) where
  running : V
  disk : V
  pending : Option V
  stored : Option V
  backups : List (Backup V)

/-- How far an installation comes. `renamed` is an error of `swap` after its rename. -/
inductive Fate where
  | refused
  | preserved
  | renamed
  | installed
  deriving DecidableEq

/-- `id` is that of the new backup; the pruning leaves what is `kept`; `persisted` is whether the
state file is written at the end. -/
inductive Action (V : Type) where
  | apply (version : V) (id : String) (fate : Fate) (kept : String → Bool) (persisted : Bool)
  | rollback (target id : String) (fate : Fate) (persisted : Bool)
  | restart

namespace Machine

variable {V : Type} {m t : Machine V}

def pruneBackups (m : Machine V) (kept : String → Bool) : Machine V :=
  { m with backups := m.backups.filter (kept ·.id) }

def persist (m : Machine V) (persisted : Bool) : Machine V :=
  if persisted then { m with stored := m.pending } else m

structure Sound (m : Machine V) : Prop where
  disk : m.disk = m.pending.getD m.running
  labels : ∀ b ∈ m.backups, b.version = b.reports

theorem Sound.pruneBackups (h : m.Sound) (kept : String → Bool) : (m.pruneBackups kept).Sound :=
  ⟨h.disk, fun b hb => h.labels b (List.mem_of_mem_filter hb)⟩

theorem Sound.persist (h : m.Sound) (persisted : Bool) : (m.persist persisted).Sound := by
  unfold Machine.persist
  split
  · exact ⟨h.disk, h.labels⟩
  · exact h

variable [LinearOrder V]

def initial (release : V) : Machine V := ⟨release, release, none, none, []⟩

def effective (m : Machine V) : V :=
  match m.pending with
  | some pending => if m.running < pending then pending else m.running
  | none => m.running

def backupCurrent (m : Machine V) (id : String) : Machine V :=
  { m with backups := ⟨id, m.effective, m.disk⟩ :: m.backups.filter (·.id ≠ id) }

def install (m : Machine V) (id : String) (version : V) : Fate → Machine V
  | .refused => m
  | .preserved => m.backupCurrent id
  | .renamed => { m.backupCurrent id with disk := version }
  | .installed =>
    { m.backupCurrent id with
      disk := version
      pending := if version = m.running then none else some version }

/-- `downgrades` is `AllowDowngrade`. A backup that does not report its version is refused. -/
def step (downgrades : Bool) (m : Machine V) : Action V → Option (Machine V)
  | .apply version id fate kept persisted =>
    if downgrades ∨ m.effective < version then
      some (((m.install id version fate).pruneBackups kept).persist persisted)
    else none
  | .rollback target id fate persisted =>
    (m.backups.find? (·.id = target)).map fun backup =>
      (if backup.version = backup.reports then m.install id backup.reports fate else m).persist
        persisted
  | .restart =>
    some { m with
      running := m.disk
      pending := if m.stored = some m.disk then none else m.stored }

/-- A binary is preserved only while no older release is pending, `swap` does not fail after its
rename, and a restart finds no other pending version than that on disk. -/
def orderly (m : Machine V) : Action V → Bool
  | .apply _ _ fate _ _ | .rollback _ _ fate _ =>
    fate = .refused || (fate ≠ .renamed && m.pending.all (m.running < ·))
  | .restart => m.stored.all (· = m.disk)

variable {id : String} {version : V} {fate : Fate}

theorem Sound.effective (h : m.Sound) (hpending : m.pending.all (m.running < ·) = true) :
    m.effective = m.disk := by
  rw [h.disk, Machine.effective]
  cases hp : m.pending with
  | none => rfl
  | some pending =>
    rw [hp] at hpending
    simp [of_decide_eq_true hpending]

theorem Sound.backupCurrent (h : m.Sound) (hpending : m.pending.all (m.running < ·) = true) :
    ∀ b ∈ (m.backupCurrent id).backups, b.version = b.reports := by
  intro b hb
  rcases List.mem_cons.mp hb with rfl | hb
  · exact h.effective hpending
  · exact h.labels b (List.mem_of_mem_filter hb)

theorem Sound.install (h : m.Sound)
    (hfate : (fate = .refused || (fate ≠ .renamed && m.pending.all (m.running < ·))) = true) :
    (m.install id version fate).Sound := by
  cases fate with
  | refused => exact h
  | renamed => simp at hfate
  | preserved => exact ⟨h.disk, h.backupCurrent (by simpa using hfate)⟩
  | installed =>
    refine ⟨?_, h.backupCurrent (by simpa using hfate)⟩
    simp only [Machine.install, Machine.backupCurrent]
    split
    · simpa
    · rfl

theorem Sound.step {downgrades : Bool} {a : Action V} (h : m.Sound) (horderly : m.orderly a = true)
    (hstep : m.step downgrades a = some t) : t.Sound := by
  cases a with
  | apply version id fate kept persisted =>
    obtain ⟨-, ht⟩ := Option.ite_none_right_eq_some.mp hstep
    cases ht
    exact ((h.install horderly).pruneBackups kept).persist persisted
  | rollback target id fate persisted =>
    obtain ⟨backup, -, rfl⟩ := Option.map_eq_some_iff.mp hstep
    split
    · exact (h.install horderly).persist persisted
    · exact h.persist persisted
  | restart =>
    cases hstep
    refine ⟨?_, h.labels⟩
    cases hs : m.stored with
    | none => simp
    | some stored => simp_all [orderly]

/-- In a run of orderly steps every backup is recorded under the release that it reports, as
`Rollback` demands. -/
theorem backups_labelled {downgrades : Bool} {release : V} {run : List (Action V)}
    (hmeets : Meets (step downgrades) (fun m a => m.orderly a = true) (initial release) run)
    (hrun : exec (step downgrades) (initial release) run = some m) :
    ∀ b ∈ m.backups, b.version = b.reports :=
  (exec_invariant Sound (fun _ _ _ h hcond hstep => h.step hcond hstep) ⟨rfl, by simp [initial]⟩
    hmeets hrun).labels

def updated : List (Action Nat) :=
  [.apply 2 "a" .installed (fun _ => true) true, .restart,
    .apply 3 "b" .installed (fun _ => true) true]

theorem updated_labelled : ∃ m, exec (step false) (initial 1) updated = some m ∧
    m.backups.length = 2 ∧ ∀ b ∈ m.backups, b.version = b.reports := by
  have hmeets : Meets (step false) (fun m a => m.orderly a = true) (initial 1) updated := by
    decide
  exact exists_some_and (by decide) fun _ hrun _ => backups_labelled hmeets hrun

/-- An update, a restart, a rollback to release 1, and an update before the next restart: the backup
of release 1 is recorded as release 2. -/
theorem rolled_back_mislabelled : ∃ m, exec (step false) (initial 1)
      [.apply 2 "a" .installed (fun _ => true) true, .restart, .rollback "a" "b" .installed true,
        .apply 3 "c" .installed (fun _ => true) true] = some m ∧
    ∃ b ∈ m.backups, b.version = 2 ∧ b.reports = 1 := by
  decide

end Machine

end Shiftgate.Update
