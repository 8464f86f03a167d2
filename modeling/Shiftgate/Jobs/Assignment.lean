import Shiftgate.Jobs.Row
import Shiftgate.Library.FileTable
import Shiftgate.Library.Runs

/-! The settlement of completed migrations (`migrations_routes.go`): a listing reads which migration
of a workload completed last, reads the workload, and writes the whole row back. Other requests come
in between. -/

namespace Shiftgate.Jobs.Settling

open Library List Option FileTable

/-- `machineWrittenAt` is the step that last wrote `machine_id`; it is not a column. -/
structure WorkloadRow where
  machineID : String
  name : String
  spec : String
  status : String
  machineWrittenAt : Nat
  deriving DecidableEq

structure MigrationRow where
  id : String
  workloadID : String
  destinationMachineID : String
  status : JobStatus
  completedAt : Nat
  deriving DecidableEq

structure Assignment where
  workloadID : String
  machineID : String

/-- The page of `handleMigrationList`, the migration of `handleMigrationEvents`, a page of
`latestWorkloadMigration`, or a read or a write of `applyMigrationAssignment`. -/
inductive Point where
  | list (limit : Nat)
  | events (migrationID : String)
  | scan (workloadID : String) (index : Nat)
  | apply (todo : List Assignment)
  | upsert (record : WorkloadRow) (assignment : Assignment) (todo : List Assignment)
  | done

structure Plane where
  now : Nat
  machines : List String
  workloads : FileTable WorkloadRow
  migrations : List MigrationRow
  listings : List Point

def Plane.initial : Plane := ⟨0, [], .empty, [], []⟩

def MigrationRow.completedOf (workloadID : String) (m : MigrationRow) : Bool :=
  m.workloadID = workloadID && m.status = .completed

def settleCompletedMigrationPage : List MigrationRow → List String → List Assignment
  | [], _ => []
  | m :: rest, settled =>
    if m.status ≠ .completed ∨ m.workloadID ∈ settled then
      settleCompletedMigrationPage rest settled
    else ⟨m.workloadID, m.destinationMachineID⟩ ::
      settleCompletedMigrationPage rest (m.workloadID :: settled)

def maxPageLimit : Nat := 500

def migrationSettleScanPages : Nat := 20

def Plane.upsertWorkload (p : Plane) (workloadID : String) (record : WorkloadRow) :
    Option (FileTable WorkloadRow) :=
  if record.machineID ∈ p.machines then
    some (p.workloads.set workloadID { record with machineWrittenAt := p.now })
  else none

def Point.next (p : Plane) (fails : Bool) : Point → FileTable WorkloadRow × Point
  | .list limit => (p.workloads,
      if fails then .done else .apply (settleCompletedMigrationPage (p.migrations.take limit) []))
  | .events migrationID => (p.workloads,
      if fails then .done
      else match p.migrations.find? (·.id = migrationID) with
        | some m => if m.status = .completed then .scan m.workloadID 0 else .done
        | none => .done)
  | .scan workloadID index => (p.workloads,
      if fails then .done
      else
        let page := (p.migrations.drop (index * maxPageLimit)).take maxPageLimit
        match page.find? (·.completedOf workloadID) with
        | some m => .apply [⟨workloadID, m.destinationMachineID⟩]
        | none =>
          if page.length < maxPageLimit ∨ index + 1 = migrationSettleScanPages then .done
          else .scan workloadID (index + 1))
  | .apply [] => (p.workloads, .done)
  | .apply (a :: todo) => (p.workloads,
      if a.machineID = "" ∨ fails = true then .apply todo
      else match p.workloads.get a.workloadID with
        | some row =>
          if row.machineID = a.machineID then .apply todo
          else .upsert { row with machineID := a.machineID } a todo
        | none => .apply todo)
  | .upsert record a todo =>
    (if fails then p.workloads else (p.upsertWorkload a.workloadID record).getD p.workloads,
      .apply todo)
  | .done => (p.workloads, .done)

inductive Action where
  | arrive (point : Point)
  | advance (listing : Nat) (fails : Bool)
  | report (workloadID status : String)
  | reconcile (workloadID : String) (record : WorkloadRow)
  | create (workloadID : String) (record : WorkloadRow)
  | createMigration (m : MigrationRow)
  | setMigration (id : String) (status : JobStatus)
  | addMachine (machineID : String)

def Point.fresh : Point → Bool
  | .list _ | .events _ => true
  | _ => false

def MigrationRow.set (now : Nat) (status : JobStatus) (m : MigrationRow) : MigrationRow :=
  { m with status, completedAt := if status = .completed then now else m.completedAt }

def Plane.act (p : Plane) : Action → Option Plane
  | .arrive point => if point.fresh then some { p with listings := p.listings ++ [point] } else none
  | .advance k fails => (p.listings[k]?).map fun point =>
      { p with
        workloads := (point.next p fails).1
        listings := p.listings.set k (point.next p fails).2 }
  | .report workloadID status => (p.workloads.get workloadID).map fun row =>
      { p with workloads := p.workloads.set workloadID { row with status } }
  | .reconcile workloadID record =>
    (p.upsertWorkload workloadID record).map fun workloads => { p with workloads }
  | .create workloadID record =>
    -- The id is drawn, and no row has it.
    if p.workloads.get workloadID = none ∧ p.migrations.all (·.workloadID ≠ workloadID) then
      some { p with workloads :=
        p.workloads.set workloadID { record with machineWrittenAt := p.now } }
    else none
  | .createMigration m =>
    if m.status = .queued ∧ (p.workloads.get m.workloadID).isSome ∧
        p.migrations.all (fun old => old.id ≠ m.id &&
          (old.workloadID ≠ m.workloadID || !old.status.active)) then
      some { p with migrations := m :: p.migrations }
    else none
  | .setMigration id status => some { p with
      migrations := p.migrations.map fun m => if m.id = id then m.set p.now status else m }
  | .addMachine machineID => some { p with machines := machineID :: p.machines }

def Plane.step (p : Plane) (a : Action) : Option Plane :=
  (p.act a).map fun q => { q with now := p.now + 1 }

/-- Every workload is as it was, or has got the destination of a migration that completed after its
machine was last written. -/
def SettlesOnly (p q : Plane) : Prop :=
  ∀ workloadID, q.workloads.get workloadID = p.workloads.get workloadID ∨
    ∃ row, p.workloads.get workloadID = some row ∧ ∃ m ∈ p.migrations,
      m.completedOf workloadID = true ∧ row.machineWrittenAt ≤ m.completedAt ∧
        q.workloads.get workloadID =
          some { row with machineID := m.destinationMachineID, machineWrittenAt := p.now }

def Settles (p : Plane) : Action → Prop
  | .advance k fails => ∀ q, p.step (.advance k fails) = some q → SettlesOnly p q
  | _ => True

def Point.writing (workloadID : String) : Point → Bool
  | .upsert _ a _ => a.workloadID = workloadID
  | _ => false

def Point.pending (workloadID : String) : Point → Bool
  | .scan sought _ => sought = workloadID
  | .apply todo => todo.any (·.workloadID = workloadID)
  | .upsert _ a todo => a.workloadID = workloadID || todo.any (·.workloadID = workloadID)
  | _ => false

def newestCompleted (migrations : List MigrationRow) (workloadID : String) : Option MigrationRow :=
  migrations.find? (·.completedOf workloadID)

/-- No row is written between the read and the write of a listing; a sweep writes the machine that
the newest completed migration left the workload on; a migration completes while no listing deals
with its workload, and stays completed. -/
def careful (p : Plane) : Action → Bool
  | .advance k _ => (p.listings[k]?).all fun
      | .upsert _ a _ => (p.listings.eraseIdx k).all (!·.writing a.workloadID)
      | _ => true
  | .report workloadID _ => p.listings.all (!·.writing workloadID)
  | .reconcile workloadID record => p.listings.all (!·.writing workloadID) &&
      (newestCompleted p.migrations workloadID).all (·.destinationMachineID = record.machineID)
  | .setMigration id status => p.migrations.all fun m => m.id ≠ id ||
      (if m.status = .completed then status = .completed
       else status ≠ .completed || p.listings.all (!·.pending m.workloadID))
  | _ => true

def Due (migrations : List MigrationRow) (a : Assignment) : Prop :=
  ∃ m, newestCompleted migrations a.workloadID = some m ∧ m.destinationMachineID = a.machineID

def PointSound (p : Plane) : Point → Prop
  | .scan workloadID index =>
    ∀ m ∈ p.migrations.take (index * maxPageLimit), m.completedOf workloadID = false
  | .apply todo => ∀ a ∈ todo, Due p.migrations a
  | .upsert record a todo => (∀ b ∈ a :: todo, Due p.migrations b) ∧
      ∃ row, p.workloads.get a.workloadID = some row ∧ row.machineID ≠ a.machineID ∧
        record = { row with machineID := a.machineID }
  | _ => True

structure Sound (p : Plane) : Prop where
  clock : ∀ workloadID row, p.workloads.get workloadID = some row → row.machineWrittenAt ≤ p.now
  rows : ∀ workloadID row m, p.workloads.get workloadID = some row →
    newestCompleted p.migrations workloadID = some m →
      row.machineID = m.destinationMachineID ∨ row.machineWrittenAt ≤ m.completedAt
  points : ∀ x ∈ p.listings, PointSound p x

variable {p q : Plane} {x : Point} {workloadID : String}

variable {a : Assignment} {m : MigrationRow} {k n : Nat} {actions : List Action}
  {I : Plane → Point → Prop}

theorem mem_settleCompletedMigrationPage {records : List MigrationRow} {settled : List String}
    (h : a ∈ settleCompletedMigrationPage records settled) :
    a.workloadID ∉ settled ∧ Due records a := by
  induction records generalizing settled with
  | nil => cases h
  | cons m rest ih =>
    simp only [settleCompletedMigrationPage] at h
    have hskip : m.completedOf a.workloadID = false → Due rest a → Due (m :: rest) a := by
      rintro hno ⟨found, hfound, hmachine⟩
      exact ⟨found, by rw [newestCompleted, find?_cons, hno]; exact hfound, hmachine⟩
    split_ifs at h with hpass
    · obtain ⟨hnew, hdue⟩ := ih h
      refine ⟨hnew, hskip ?_ hdue⟩
      rcases hpass with hstatus | hsettled
      · simp [MigrationRow.completedOf, hstatus]
      · have hother : m.workloadID ≠ a.workloadID := fun heq => hnew (heq ▸ hsettled)
        simp [MigrationRow.completedOf, hother]
    · rw [not_or, not_not] at hpass
      rcases mem_cons.mp h with rfl | hlater
      · refine ⟨hpass.2, m, ?_, rfl⟩
        simp [newestCompleted, MigrationRow.completedOf, hpass.1]
      · obtain ⟨hnew, hdue⟩ := ih hlater
        rw [mem_cons, not_or] at hnew
        refine ⟨hnew.2, hskip ?_ hdue⟩
        simp [MigrationRow.completedOf, Ne.symm hnew.1]

theorem find?_page {P : MigrationRow → Bool} {l : List MigrationRow}
    (hbefore : ∀ e ∈ l.take k, P e = false) (h : ((l.drop k).take n).find? P = some m) :
    l.find? P = some m := by
  have hdrop : (l.drop k).find? P = some m := by
    rw [← take_append_drop n (l.drop k), find?_append, h, some_or]
  rw [← take_append_drop k l, find?_append, hdrop,
    find?_eq_none.mpr fun e he => by simp [hbefore e he], none_or]

theorem next_sound (h : PointSound p x) (fails : Bool)
    (hq : q.migrations = p.migrations) (hworkloads : q.workloads = (x.next p fails).1) :
    PointSound q (x.next p fails).2 := by
  cases x with
  | list limit =>
    cases fails with
    | true => trivial
    | false =>
      intro a ha
      obtain ⟨-, m, hm, hmachine⟩ := mem_settleCompletedMigrationPage ha
      refine ⟨m, hq ▸ find?_page (k := 0) (n := limit) (by simp) ?_, hmachine⟩
      rw [drop_zero]
      exact hm
  | events migrationID =>
    simp only [Point.next]
    split_ifs
    · trivial
    · split
      · split_ifs
        · simp [PointSound]
        · trivial
      · trivial
  | scan workloadID index =>
    cases fails with
    | true => trivial
    | false =>
      simp only [Point.next, Bool.false_eq_true, if_false]
      split
      · rename_i m hm
        intro a ha
        rw [mem_singleton.mp ha]
        exact ⟨m, hq ▸ find?_page h hm, rfl⟩
      · rename_i hnone
        split_ifs
        · trivial
        · intro m hm
          rw [hq, Nat.succ_mul, take_add] at hm
          rcases mem_append.mp hm with hm | hm
          · exact h m hm
          · simpa using find?_eq_none.mp hnone m hm
  | apply todo =>
    cases todo with
    | nil => trivial
    | cons a todo =>
      have hdue : ∀ b ∈ a :: todo, Due q.migrations b := hq ▸ h
      have hrest : ∀ b ∈ todo, Due q.migrations b := fun b hb => hdue b (mem_cons_of_mem _ hb)
      simp only [Point.next] at hworkloads ⊢
      split_ifs
      · exact hrest
      · split
        · rename_i row hrow
          split_ifs with hsame
          · exact hrest
          · exact ⟨hdue, row, hworkloads ▸ hrow, hsame, rfl⟩
        · exact hrest
  | upsert record a todo =>
    intro b hb
    exact hq ▸ h.1 b (mem_cons_of_mem _ hb)
  | done => trivial

theorem PointSound.of_workloads (h : PointSound p x) (hmigrations : q.migrations = p.migrations)
    (hrows : ∀ workloadID, x.writing workloadID = true →
      q.workloads.get workloadID = p.workloads.get workloadID) : PointSound q x := by
  cases x with
  | upsert record a todo =>
    obtain ⟨hdue, row, hrow, hrest⟩ := h
    have hsame := hrows a.workloadID (by simp [Point.writing])
    exact ⟨hmigrations ▸ hdue, row, hsame.trans hrow, hrest⟩
  | apply todo => exact fun a ha => hmigrations ▸ h a ha
  | scan workloadID index =>
    intro m hm
    rw [hmigrations] at hm
    exact h m hm
  | _ => trivial

theorem PointSound.of_migrations (h : PointSound p x) (hworkloads : q.workloads = p.workloads)
    (hdue : ∀ a, x.pending a.workloadID = true → Due p.migrations a → Due q.migrations a)
    (hscan : ∀ workloadID n, x.pending workloadID = true →
      (∀ m ∈ p.migrations.take n, m.completedOf workloadID = false) →
        ∀ m ∈ q.migrations.take n, m.completedOf workloadID = false) : PointSound q x := by
  cases x with
  | upsert record a todo =>
    obtain ⟨hall, row, hrow, hrest⟩ := h
    refine ⟨fun b hb => hdue b ?_ (hall b hb), row, hworkloads ▸ hrow, hrest⟩
    rcases mem_cons.mp hb with rfl | hb
    · simp [Point.pending]
    · simp only [Point.pending, Bool.or_eq_true, List.any_eq_true, decide_eq_true_eq]
      exact .inr ⟨b, hb, rfl⟩
  | apply todo =>
    intro a ha
    refine hdue a ?_ (h a ha)
    simp only [Point.pending, List.any_eq_true, decide_eq_true_eq]
    exact ⟨a, ha, rfl⟩
  | scan workloadID index => exact hscan workloadID _ (by simp [Point.pending]) h
  | _ => trivial

theorem Sound.write {row : WorkloadRow} {listings : List Point} (h : Sound p)
    (hpoints : ∀ x ∈ listings, PointSound p x ∧ x.writing workloadID = false)
    (hclock : row.machineWrittenAt ≤ p.now)
    (hrow : ∀ m, newestCompleted p.migrations workloadID = some m →
      row.machineID = m.destinationMachineID ∨ row.machineWrittenAt ≤ m.completedAt) :
    Sound { p with now := p.now + 1, workloads := p.workloads.set workloadID row, listings } := by
  refine ⟨fun other found hget => ?_, fun other found m hget hm => ?_, fun x hx => ?_⟩
  · simp only [get_set] at hget
    split_ifs at hget
    · cases hget
      exact Nat.le_succ_of_le hclock
    · exact Nat.le_succ_of_le (h.clock other found hget)
  · simp only [get_set] at hget
    split_ifs at hget with hsame
    · cases hget
      exact hrow m (hsame ▸ hm)
    · exact h.rows other found m hget hm
  · obtain ⟨hsound, hidle⟩ := hpoints x hx
    refine hsound.of_workloads rfl fun other hwriting => ?_
    rw [get_set_other]
    rintro rfl
    rw [hidle] at hwriting
    cases hwriting

theorem newestCompleted_mem {migrations : List MigrationRow}
    (h : newestCompleted migrations workloadID = some m) :
    m ∈ migrations ∧ m.completedOf workloadID = true :=
  ⟨mem_of_find?_eq_some h, find?_some h⟩

theorem Sound.settle {record : WorkloadRow} {todo : List Assignment} (h : Sound p)
    (hk : p.listings[k]? = some (.upsert record a todo))
    (hq : q.workloads = p.workloads.set a.workloadID { record with machineWrittenAt := p.now }) :
    SettlesOnly p q := by
  obtain ⟨hdue, row, hrow, hne, rfl⟩ := h.points _ (mem_of_getElem? hk)
  obtain ⟨m, hm, hmachine⟩ := hdue a (mem_cons_self ..)
  intro workloadID
  rw [hq, get_set]
  split_ifs with hsame
  · subst hsame
    refine .inr ⟨row, hrow, m, (newestCompleted_mem hm).1, (newestCompleted_mem hm).2, ?_, ?_⟩
    · -- The machine is not the destination, so it was written before the migration completed.
      exact (h.rows _ row m hrow hm).resolve_left (hmachine ▸ hne)
    · rw [hmachine]
  · exact .inl rfl

theorem mem_set_cases {l : List Point} {x y : Point} (h : x ∈ l.set k y) :
    x = y ∨ x ∈ l.eraseIdx k := by
  obtain ⟨j, hj⟩ := mem_iff_getElem?.mp h
  rw [getElem?_set] at hj
  split_ifs at hj with hkj hlt
  · exact .inl (some.inj hj).symm
  · exact .inr (mem_eraseIdx_iff_getElem?.mpr ⟨j, Ne.symm hkj, hj⟩)

theorem Sound.advance {fails : Bool} (h : Sound p) (hcareful : careful p (.advance k fails) = true)
    (hstep : p.step (.advance k fails) = some q) : Sound q ∧ SettlesOnly p q := by
  obtain ⟨_, hact, rfl⟩ := map_eq_some_iff.mp hstep
  obtain ⟨point, hk, rfl⟩ := map_eq_some_iff.mp hact
  have hpoint := h.points point (mem_of_getElem? hk)
  -- A listing at any other point, and one whose write fails, changes no row.
  by_cases hsame : (point.next p fails).1 = p.workloads
  · refine ⟨⟨fun w row hrow => Nat.le_succ_of_le (h.clock w row (hsame ▸ hrow)),
      fun w row m hrow => h.rows w row m (hsame ▸ hrow), fun x hx => ?_⟩,
      fun w => .inl (by rw [hsame])⟩
    rcases mem_set_cases hx with rfl | hother
    · exact next_sound hpoint fails rfl rfl
    · exact (h.points x (mem_of_mem_eraseIdx hother)).of_workloads rfl
        fun w _ => by rw [hsame]
  · cases point with
    | upsert record a todo =>
      simp only [Point.next, Plane.upsertWorkload] at hsame ⊢
      split_ifs at hsame ⊢ with hfails hmachine
      · exact absurd rfl hsame
      · refine ⟨?_, h.settle hk rfl⟩
        obtain ⟨hdue, row, -, -, rfl⟩ := hpoint
        refine h.write (fun x hx => ?_) le_rfl fun m hm => ?_
        · rcases mem_set_cases hx with rfl | hother
          · exact ⟨fun b hb => hdue b (mem_cons_of_mem _ hb), rfl⟩
          · simp only [careful, hk, all_some, List.all_eq_true, Bool.not_eq_true'] at hcareful
            exact ⟨h.points x (mem_of_mem_eraseIdx hother), hcareful x hother⟩
        · obtain ⟨newest, hnewest, hmachine⟩ := hdue a (mem_cons_self ..)
          cases hnewest.symm.trans hm
          exact .inl hmachine.symm
      · exact absurd rfl hsame
    | apply todo => cases todo <;> exact absurd rfl hsame
    | _ => exact absurd rfl hsame

theorem Sound.createMigration (h : Sound p) (hstatus : m.status = .queued) :
    Sound { p with now := p.now + 1, migrations := m :: p.migrations } := by
  have hno : ∀ workloadID, m.completedOf workloadID = false := by
    simp [MigrationRow.completedOf, hstatus]
  have hnewest : ∀ workloadID, newestCompleted (m :: p.migrations) workloadID =
      newestCompleted p.migrations workloadID := by
    intro workloadID
    rw [newestCompleted, find?_cons, hno, newestCompleted]
  refine ⟨fun w row hrow => Nat.le_succ_of_le (h.clock w row hrow), fun w row found hrow hfound =>
    h.rows w row found hrow (hnewest w ▸ hfound), fun x hx => ?_⟩
  refine (h.points x hx).of_migrations rfl (fun a _ hdue => ?_) fun w n _ hnone e he => ?_
  · obtain ⟨found, hfound, hmachine⟩ := hdue
    exact ⟨found, (hnewest a.workloadID).trans hfound, hmachine⟩
  · cases n with
    | zero => cases he
    | succ n =>
      rcases mem_cons.mp he with rfl | he
      · exact hno w
      · exact hnone e (take_subset_take_left _ (Nat.le_succ n) he)

/-- What was completed stays so, and a migration completes while no listing deals with its workload.
-/
theorem Sound.setMigration {id : String} {status : JobStatus} (h : Sound p)
    (hcareful : careful p (.setMigration id status) = true) :
    Sound { p with
      now := p.now + 1
      migrations := p.migrations.map fun m => if m.id = id then m.set p.now status else m } := by
  set g : MigrationRow → MigrationRow := fun m => if m.id = id then m.set p.now status else m
    with hg
  have hkind : ∀ m ∈ p.migrations, m.id = id →
      (m.status = .completed → status = .completed) ∧ (m.status ≠ .completed →
        status = .completed → ∀ x ∈ p.listings, x.pending m.workloadID = false) := by
    intro m hm hid
    have hallowed := List.all_eq_true.mp hcareful m hm
    by_cases hcompleted : m.status = .completed
    · simpa [hid, hcompleted] using hallowed
    · refine ⟨fun h => absurd h hcompleted, fun _ hstatus => ?_⟩
      simpa [hid, hcompleted, hstatus] using hallowed
  have hother : ∀ m, m.id ≠ id → g m = m := fun m hid => if_neg hid
  have hset : ∀ m, m.id = id → g m = m.set p.now status := fun m hid => if_pos hid
  have hdestination : ∀ m, (g m).destinationMachineID = m.destinationMachineID := by
    intro m
    simp only [hg]
    split_ifs <;> rfl
  have hstays : ∀ w, ∀ m ∈ p.migrations, m.completedOf w = true → (g m).completedOf w = true := by
    intro w m hm hcompleted
    by_cases hid : m.id = id
    · simp only [MigrationRow.completedOf, Bool.and_eq_true, decide_eq_true_eq] at hcompleted
      simp [hset m hid, MigrationRow.completedOf, MigrationRow.set, hcompleted.1,
        (hkind m hm hid).1 hcompleted.2]
    · rwa [hother m hid]
  have hsame : ∀ x ∈ p.listings, ∀ w, x.pending w = true → ∀ m ∈ p.migrations,
      (g m).completedOf w = m.completedOf w := by
    intro x hx w hpending m hm
    cases hcompleted : m.completedOf w with
    | true => exact hstays w m hm hcompleted
    | false =>
      by_cases hid : m.id = id
      · rw [hset m hid]
        by_cases hw : m.workloadID = w
        · have hnot : m.status ≠ .completed := by
            simpa [MigrationRow.completedOf, hw] using hcompleted
          have hstatus : status ≠ .completed := by
            intro hstatus
            rw [← hw, (hkind m hm hid).2 hnot hstatus x hx] at hpending
            cases hpending
          simp [MigrationRow.completedOf, MigrationRow.set, hstatus]
        · simp [MigrationRow.completedOf, MigrationRow.set, hw]
      · rwa [hother m hid]
  refine ⟨fun w row hrow => Nat.le_succ_of_le (h.clock w row hrow),
    fun w row found hrow hfound => ?_, fun x hx => ?_⟩
  · rw [newestCompleted, find?_map] at hfound
    obtain ⟨m, hm, rfl⟩ := map_eq_some_iff.mp hfound
    obtain ⟨hcompleted, before, after, hsplit, hbefore⟩ := find?_eq_some_iff_append.mp hm
    by_cases hid : m.id = id
    · have hstatus : status = .completed := by
        simp only [Function.comp_apply, hset m hid, MigrationRow.completedOf, MigrationRow.set,
          Bool.and_eq_true, decide_eq_true_eq] at hcompleted
        exact hcompleted.2
      right
      simpa [hset m hid, MigrationRow.set, hstatus] using h.clock w row hrow
    · -- The migration was the newest completed one before.
      rw [Function.comp_apply, hother m hid] at hcompleted
      rw [hother m hid]
      refine h.rows w row m hrow (find?_eq_some_iff_append.mpr
        ⟨hcompleted, before, after, hsplit, fun e he => ?_⟩)
      have hmem : e ∈ p.migrations := hsplit ▸ mem_append_left _ he
      have hafter := hbefore e he
      simp only [Function.comp_apply, Bool.not_eq_true'] at hafter ⊢
      by_contra hyes
      rw [hstays w e hmem (by simpa using hyes)] at hafter
      cases hafter
  · refine (h.points x hx).of_migrations rfl (fun a hpending hdue => ?_)
      fun w n hpending hnone e he => ?_
    · obtain ⟨m, hm, hmachine⟩ := hdue
      refine ⟨g m, ?_, (hdestination m).trans hmachine⟩
      rw [newestCompleted, find?_map]
      exact congrArg (Option.map g) ((find?_congr (hsame x hx _ hpending)).trans hm)
    · rw [← map_take] at he
      obtain ⟨m, hm, rfl⟩ := List.mem_map.mp he
      rw [hsame x hx w hpending m (mem_of_mem_take hm)]
      exact hnone m hm

theorem Sound.step {a : Action} (h : Sound p) (hcareful : careful p a = true)
    (hstep : p.step a = some q) : Sound q := by
  have hidle {w : String} (hall : p.listings.all (!·.writing w) = true) :
      ∀ x ∈ p.listings, PointSound p x ∧ x.writing w = false := fun x hx =>
    ⟨h.points x hx, by simpa using List.all_eq_true.mp hall x hx⟩
  cases a with
  | advance k fails => exact (h.advance hcareful hstep).1
  | arrive point =>
    obtain ⟨_, hact, rfl⟩ := map_eq_some_iff.mp hstep
    simp only [Plane.act] at hact
    split_ifs at hact with hfresh
    cases hact
    refine ⟨fun w row hrow => Nat.le_succ_of_le (h.clock w row hrow), h.rows, fun x hx => ?_⟩
    rcases mem_append.mp hx with hx | hx
    · exact (h.points x hx).of_workloads rfl fun _ _ => rfl
    · rw [mem_singleton.mp hx]
      cases point <;> trivial
  | report w status =>
    obtain ⟨_, hact, rfl⟩ := map_eq_some_iff.mp hstep
    obtain ⟨row, hrow, rfl⟩ := map_eq_some_iff.mp hact
    exact h.write (hidle hcareful) (h.clock w row hrow) fun m => h.rows w row m hrow
  | reconcile w record =>
    obtain ⟨_, hact, rfl⟩ := map_eq_some_iff.mp hstep
    obtain ⟨_, hupsert, rfl⟩ := map_eq_some_iff.mp hact
    unfold Plane.upsertWorkload at hupsert
    split_ifs at hupsert
    cases hupsert
    simp only [careful, Bool.and_eq_true] at hcareful
    refine h.write (hidle hcareful.1) le_rfl fun m hm => .inl ?_
    simpa [hm, eq_comm] using hcareful.2
  | create w record =>
    obtain ⟨_, hact, rfl⟩ := map_eq_some_iff.mp hstep
    simp only [Plane.act] at hact
    split_ifs at hact with hnew
    cases hact
    refine h.write (fun x hx => ⟨h.points x hx, ?_⟩) le_rfl fun m hm => ?_
    · -- A listing writes a row that is there.
      cases x with
      | upsert record a todo =>
        obtain ⟨-, row, hrow, -⟩ := h.points _ hx
        simp only [Point.writing, decide_eq_false_iff_not]
        rintro rfl
        rw [hnew.1] at hrow
        cases hrow
      | _ => rfl
    · obtain ⟨hmem, hcompleted⟩ := newestCompleted_mem hm
      have hno := List.all_eq_true.mp hnew.2 m hmem
      simp_all [MigrationRow.completedOf]
  | createMigration m =>
    obtain ⟨_, hact, rfl⟩ := map_eq_some_iff.mp hstep
    simp only [Plane.act] at hact
    split_ifs at hact with hnew
    cases hact
    exact h.createMigration hnew.1
  | setMigration id status =>
    obtain ⟨_, hact, rfl⟩ := map_eq_some_iff.mp hstep
    cases hact
    exact h.setMigration hcareful
  | addMachine machineID =>
    obtain ⟨_, hact, rfl⟩ := map_eq_some_iff.mp hstep
    cases hact
    exact ⟨fun w row hrow => Nat.le_succ_of_le (h.clock w row hrow), h.rows,
      fun x hx => (h.points x hx).of_workloads rfl fun _ _ => rfl⟩

theorem sound_initial : Sound .initial := ⟨nofun, nofun, nofun⟩

theorem Sound.settles (h : Sound p)
    (hcareful : Meets Plane.step (fun p a => careful p a = true) p actions) :
    Meets Plane.step Settles p actions := by
  refine .of_invariant Sound (fun _ _ _ h hc hs => h.step hc hs) (fun p a h hc => ?_) h hcareful
  cases a with
  | advance k fails => exact fun q hstep => (h.advance hc hstep).2
  | _ => trivial

def listing (p : Plane) (limit steps : Nat) : List Action :=
  .arrive (.list limit) :: List.replicate steps (.advance p.listings.length false)

def Applied (machines : List String) (workloads : FileTable WorkloadRow) (a : Assignment) : Prop :=
  a.machineID = "" ∨ a.machineID ∉ machines ∨
    ∀ row ∈ workloads.get a.workloadID, row.machineID = a.machineID

def Progress (page : List Assignment) (limit : Nat) (machines : List String)
    (workloads : FileTable WorkloadRow) : Point → Prop
  | .list l => l = limit
  | .apply todo => ∃ past, page = past ++ todo ∧ ∀ a ∈ past, Applied machines workloads a
  | .upsert record a todo => record.machineID = a.machineID ∧
      ∃ past, page = past ++ a :: todo ∧ ∀ b ∈ past, Applied machines workloads b
  | .done => ∀ a ∈ page, Applied machines workloads a
  | _ => False

def Quiet (page : List Assignment) (limit : Nat) (machines : List String) : Point → Prop
  | .list l => l = limit
  | .apply todo => todo ⊆ page
  | .upsert record a todo => record.machineID = a.machineID ∧ a.machineID ∉ machines ∧ todo ⊆ page
  | .done => True
  | _ => False

theorem page_pairwise (records : List MigrationRow) (settled : List String) :
    (settleCompletedMigrationPage records settled).Pairwise (·.workloadID ≠ ·.workloadID) := by
  induction records generalizing settled with
  | nil => exact .nil
  | cons m rest ih =>
    simp only [settleCompletedMigrationPage]
    split_ifs
    · exact ih settled
    · refine .cons (fun a ha => ?_) (ih _)
      have hnew := (mem_settleCompletedMigrationPage ha).1
      rw [mem_cons, not_or] at hnew
      exact Ne.symm hnew.1

variable {limit : Nat} {page : List Assignment}

section

variable (hpage : page = settleCompletedMigrationPage (p.migrations.take limit) [])

include hpage

theorem progress_next (h : Progress page limit p.machines p.workloads x) :
    Progress page limit p.machines (x.next p false).1 (x.next p false).2 := by
  cases x with
  | list l =>
    cases h
    exact ⟨[], hpage, nofun⟩
  | apply todo =>
    obtain ⟨past, hsplit, hpast⟩ := h
    cases todo with
    | nil =>
      intro a ha
      rw [hsplit, append_nil] at ha
      exact hpast a ha
    | cons a todo =>
      have hskip (hdone : Applied p.machines p.workloads a) :
          Progress page limit p.machines p.workloads (.apply todo) := by
        refine ⟨past ++ [a], by simp [hsplit], fun b hb => ?_⟩
        rcases mem_append.mp hb with hb | hb
        · exact hpast b hb
        · exact mem_singleton.mp hb ▸ hdone
      simp only [Point.next, Bool.false_eq_true, or_false]
      split_ifs with hempty
      · exact hskip (.inl hempty)
      · split
        · rename_i row hrow
          split_ifs with hsame
          · refine hskip (.inr (.inr fun found hfound => ?_))
            cases hrow.symm.trans hfound
            exact hsame
          · exact ⟨rfl, past, hsplit, hpast⟩
        · rename_i hnone
          exact hskip (.inr (.inr (by simp [hnone])))
  | upsert record a todo =>
    obtain ⟨hmachine, past, hsplit, hpast⟩ := h
    have hdistinct : ∀ b ∈ past, b.workloadID ≠ a.workloadID := by
      have hpairwise := hpage ▸ page_pairwise (p.migrations.take limit) []
      rw [hsplit, pairwise_append] at hpairwise
      exact fun b hb => hpairwise.2.2 b hb a (mem_cons_self ..)
    simp only [Point.next, Plane.upsertWorkload, Bool.false_eq_true, if_false]
    refine ⟨past ++ [a], by simp [hsplit], fun b hb => ?_⟩
    split_ifs with hexists
    · rw [getD_some]
      rcases mem_append.mp hb with hb | hb
      · refine (hpast b hb).imp_right (Or.imp_right fun hrow => ?_)
        rwa [get_set_other _ _ (hdistinct b hb)]
      · rw [mem_singleton.mp hb]
        exact .inr (.inr (by simp [hmachine]))
    · rcases mem_append.mp hb with hb | hb
      · exact hpast b hb
      · rw [mem_singleton.mp hb]
        exact .inr (.inl (hmachine ▸ hexists))
  | done => exact h
  | _ => cases h

theorem quiet_next (happlied : ∀ a ∈ page, Applied p.machines p.workloads a)
    (h : Quiet page limit p.machines x) :
    (x.next p false).1 = p.workloads ∧ Quiet page limit p.machines (x.next p false).2 := by
  cases x with
  | list l =>
    cases h
    exact ⟨rfl, hpage ▸ fun _ ha => ha⟩
  | apply todo =>
    cases todo with
    | nil => exact ⟨rfl, trivial⟩
    | cons a todo =>
      obtain ⟨ha, htodo⟩ := cons_subset.mp h
      refine ⟨rfl, ?_⟩
      simp only [Point.next, Bool.false_eq_true, or_false]
      split_ifs with hempty
      · exact htodo
      · split
        · rename_i row hrow
          split_ifs with hsame
          · exact htodo
          · refine ⟨rfl, fun hexists => ?_, htodo⟩
            rcases happlied a ha with h | h | h
            · exact hempty h
            · exact h hexists
            · exact hsame (h row hrow)
        · exact htodo
  | upsert record a todo =>
    obtain ⟨hmachine, hmissing, htodo⟩ := h
    refine ⟨?_, htodo⟩
    simp [Point.next, Plane.upsertWorkload, hmachine, hmissing]
  | done => exact ⟨rfl, trivial⟩
  | _ => cases h

end

section

variable
  (hnext : ∀ p x, I p x → ∀ now listings,
    I { p with now, workloads := (x.next p false).1, listings } (x.next p false).2)

include hnext

theorem exec_advance (hk : p.listings[k]? = some x) (h : I p x)
    (hrun : exec Plane.step p (List.replicate n (.advance k false)) = some q) :
    ∃ y, q.listings[k]? = some y ∧ I q y := by
  induction n generalizing p x with
  | zero =>
    cases hrun
    exact ⟨x, hk, h⟩
  | succ n ih =>
    obtain ⟨r, hstep, hrest⟩ := exec_cons.mp hrun
    obtain ⟨_, hact, rfl⟩ := map_eq_some_iff.mp hstep
    obtain ⟨point, hpoint, rfl⟩ := map_eq_some_iff.mp hact
    cases hk.symm.trans hpoint
    exact ih (getElem?_set_self (List.getElem?_eq_some_iff.mp hk).1) (hnext p x h _ _) hrest

theorem exec_listing (h : ∀ now listings, I { p with now, listings } (.list limit))
    (hrun : exec Plane.step p (listing p limit n) = some q) :
    ∃ y, q.listings[p.listings.length]? = some y ∧ I q y := by
  obtain ⟨r, hstep, hrest⟩ := exec_cons.mp hrun
  obtain ⟨_, hact, rfl⟩ := map_eq_some_iff.mp hstep
  cases hact
  exact exec_advance hnext getElem?_concat_length (h _ _) hrest

end

theorem listing_twice {r : Plane} {m : Nat}
    (hfirst : exec Plane.step p (listing p limit n) = some q)
    (hdone : q.listings[p.listings.length]? = some .done)
    (hsecond : exec Plane.step q (listing q limit m) = some r) : r.workloads = q.workloads := by
  set page := settleCompletedMigrationPage (p.migrations.take limit) [] with hpage
  obtain ⟨y, hy, ⟨hmigrations, hmachines⟩, hprogress⟩ := exec_listing
    (I := fun s x => (s.migrations = p.migrations ∧ s.machines = p.machines) ∧
      Progress page limit s.machines s.workloads x)
    (fun s x h now listings => ⟨h.1, progress_next (by rw [h.1.1]) h.2⟩)
    (fun now listings => ⟨⟨rfl, rfl⟩, rfl⟩) hfirst
  cases hdone.symm.trans hy
  obtain ⟨z, -, ⟨-, -, hsame⟩, -⟩ := exec_listing
    (I := fun s x => (s.migrations = p.migrations ∧ s.machines = q.machines ∧
      s.workloads = q.workloads) ∧ Quiet page limit s.machines x)
    (fun s x h now listings => by
      obtain ⟨⟨hsm, hsmachines, hsworkloads⟩, hquiet⟩ := h
      obtain ⟨hkept, hnext⟩ := quiet_next (by rw [hsm]) (by
        rw [hsmachines, hsworkloads]
        exact hprogress) hquiet
      exact ⟨⟨hsm, hsmachines, hkept.trans hsworkloads⟩, hnext⟩)
    (fun now listings => ⟨⟨hmigrations, rfl, rfl⟩, rfl⟩) hsecond
  exact hsame

/-- In every run that meets the condition, each step of a listing changes at most the machine of
workloads, and none that was written after the migration completed; and a second listing changes
nothing. -/
theorem settlement_changes_assignment_once {actions : List Action}
    (hcareful : Meets Plane.step (fun p a => careful p a = true) .initial actions) :
    Meets Plane.step Settles .initial actions ∧
    ∀ p q r : Plane, ∀ limit n m : Nat, exec Plane.step p (listing p limit n) = some q →
      q.listings[p.listings.length]? = some .done →
      exec Plane.step q (listing q limit m) = some r → r.workloads = q.workloads :=
  ⟨sound_initial.settles hcareful, fun _ _ _ _ _ _ => listing_twice⟩

def row (machineID status : String) : WorkloadRow := ⟨machineID, "job", "spec", status, 0⟩

def completed : List Action :=
  [.addMachine "a", .addMachine "b", .create "w" (row "a" "running"),
    .createMigration ⟨"m", "w", "b", .queued, 0⟩, .setMigration "m" .running,
    .setMigration "m" .completed]

def orderly : List Action :=
  completed ++ [.report "w" "stopped", .arrive (.list 50), .advance 0 false, .advance 0 false,
    .advance 0 false, .advance 0 false]

theorem settlement_changes_assignment_once_sample :
    Meets Plane.step Settles .initial orderly ∧
    ((exec Plane.step .initial orderly).bind (·.workloads.get "w")).map
      (fun row => (row.machineID, row.status)) = some ("b", "stopped") :=
  ⟨(settlement_changes_assignment_once (by decide)).1, by decide⟩

def sweptBack : List Action :=
  completed ++ [.reconcile "w" (row "a" "running"), .arrive (.list 50), .advance 0 false,
    .advance 0 false]

def reportBetween : List Action :=
  completed ++ [.arrive (.list 50), .advance 0 false, .advance 0 false, .report "w" "stopped"]

theorem not_settles (before after : WorkloadRow) (m : MigrationRow)
    (hrun : (exec Plane.step .initial actions).map (fun p => (p.workloads.get "w", p.migrations,
      (p.step (.advance 0 false)).map (·.workloads.get "w"))) =
        some (some before, [m], some (some after))) (hchanged : after ≠ before)
    (hbad : m.completedAt < before.machineWrittenAt ∨
      after.status ≠ before.status) :
    ∃ p, exec Plane.step .initial actions = some p ∧ ¬ Settles p (.advance 0 false) := by
  obtain ⟨p, hp, hseen⟩ := map_eq_some_iff.mp hrun
  simp only [Prod.mk.injEq] at hseen
  obtain ⟨hbefore, hmigrations, hafter⟩ := hseen
  obtain ⟨q, hstep, hq⟩ := map_eq_some_iff.mp hafter
  refine ⟨p, hp, fun hsettles => ?_⟩
  rcases hsettles q hstep "w" with hsame | ⟨found, hfound, e, he, -, hclock, hset⟩
  · rw [hbefore, hq] at hsame
    exact hchanged (some.inj hsame)
  · rw [hbefore] at hfound
    cases hfound
    rw [hmigrations] at he
    cases mem_singleton.mp he
    rw [hq] at hset
    rcases hbad with hlate | hstatus
    · omega
    · exact hstatus (by rw [some.inj hset])

/-- The listing puts the workload on `b` again; in the second run it undoes the report. -/
theorem settlement_overwrites :
    (∃ p, exec Plane.step .initial sweptBack = some p ∧ ¬ Settles p (.advance 0 false)) ∧
    ∃ p, exec Plane.step .initial reportBetween = some p ∧ ¬ Settles p (.advance 0 false) := by
  constructor
  · refine not_settles { row "a" "running" with machineWrittenAt := 6 }
      { row "b" "running" with machineWrittenAt := 10 } ⟨"m", "w", "b", .completed, 5⟩ ?_ ?_ ?_ <;>
      decide
  · refine not_settles { row "a" "stopped" with machineWrittenAt := 2 }
      { row "b" "running" with machineWrittenAt := 10 } ⟨"m", "w", "b", .completed, 5⟩ ?_ ?_ ?_ <;>
      decide

end Shiftgate.Jobs.Settling
