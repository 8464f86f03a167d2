import Shiftgate.Library.FileTable
import Shiftgate.Library.Program
import Shiftgate.Library.Runs

/-! The workload records of an agent and the calls that register, restore, change and delete them,
from `internal/runtime/manager.go`. -/

namespace Shiftgate.Runtime

open Library List Option FileTable

structure CheckpointPolicy where
  intervalSeconds : Int
  keepLast : Int

structure FailoverPolicy where
  agentURL : String
  fencingProvider : String
  fencingCommand : String
  keepLast : Int

/-- `rest` is what only the other checks of `Normalize` look at. -/
structure WorkloadSpec (β : Type) where
  id : String
  name : String
  command : List String
  checkpointPolicy : Option CheckpointPolicy
  failoverPolicy : Option FailoverPolicy
  rest : β

inductive Status where
  | registered
  | restoring
  | checkpointed
  | other (name : String)
  deriving DecidableEq

structure Workload (β : Type) where
  spec : WorkloadSpec β
  status : Status
  process : Option Nat
  generation : Nat

/-- `EqualFold` compares two texts as `fold` leaves them, `TrimSpace` leaves nothing of a blank one,
and the rest of a spec is placed and its lineage read. -/
structure Checks (β : Type) where
  fold : String → String
  blank : String → Bool
  plainHTTPS : String → Bool
  place : β → Except String β
  lineage : β → Except String Unit

structure Events (β : Type) where
  newID : Except String String
  stat : β → Except String Unit
  alive : Nat → Bool
  write : Except String Unit

variable {β : Type}

def refuse (condition : Bool) (message : String) : Except String Unit :=
  if condition then .error message else .ok ()

def CheckpointPolicy.validate (p : CheckpointPolicy) : Except String Unit := do
  refuse (p.intervalSeconds < 10) "checkpoint interval must be at least 10 seconds"
  refuse (p.keepLast < 0) "checkpoint keep_last cannot be negative"

def FailoverPolicy.validate (c : Checks β) (p : FailoverPolicy) :
    Except String FailoverPolicy := do
  refuse (!c.plainHTTPS p.agentURL) "failover standby agent URL must be a plain https URL"
  refuse (p.keepLast < 0) "failover keep_last cannot be negative"
  let provider := if p.fencingProvider = "" then "disabled" else p.fencingProvider
  refuse (provider ∉ ["disabled", "self", "command"])
    ("unsupported failover fencing provider " ++ provider.quote)
  refuse (provider = "command" && c.blank p.fencingCommand)
    "command fencing requires fencing_command"
  return { p with fencingProvider := provider }

def uncovered : String := "failover policy requires a checkpoint policy: without periodic " ++
  "checkpoints nothing would replicate to the standby"

namespace WorkloadSpec

def normalize (c : Checks β) (newID : Except String String) (spec : WorkloadSpec β) :
    Except String (WorkloadSpec β) := do
  refuse (c.blank spec.name) "workload name is required"
  refuse (spec.command.head?.all c.blank) "workload command is required"
  let id ← (if spec.id = "" then newID else .ok spec.id : Except String String)
  let rest ← c.place spec.rest
  (spec.checkpointPolicy.forM CheckpointPolicy.validate).mapError ("checkpoint policy: " ++ ·)
  let failoverPolicy ←
    (spec.failoverPolicy.mapM (FailoverPolicy.validate c)).mapError ("failover policy: " ++ ·)
  refuse (failoverPolicy.isSome && spec.checkpointPolicy.isNone) uncovered
  c.lineage rest
  return { spec with id, failoverPolicy, rest }

def Covered (spec : WorkloadSpec β) : Prop :=
  spec.failoverPolicy.isSome → spec.checkpointPolicy.isSome

end WorkloadSpec

abbrev Records (β : Type) := FileTable (Workload β)

def listWorkloads (t : Records β) : List (Workload β) :=
  (t.names.insertionSort (· ≤ ·)).filterMap t.get

def putWorkload (ev : Events β) (t : Records β) (key : String) (w : Workload β) :
    Except String (Records β) := do
  refuse (key = "") "record id is required"
  ev.write
  return t.set key w

def Workload.write (ev : Events β) (t : Records β) (w : Workload β) :
    Except String (Workload β × Records β) := do
  return (w, ← putWorkload ev t w.spec.id w)

def getWorkload (t : Records β) (idOrName : String) : Option (Workload β) :=
  (t.get idOrName).or ((listWorkloads t).find? (·.spec.name = idOrName))

def Checks.clash (c : Checks β) (spec : WorkloadSpec β) (existing : Workload β) : Option String :=
  if c.fold existing.spec.name = c.fold spec.name then
    some ("workload name " ++ spec.name.quote ++ " already exists")
  else if existing.spec.id = spec.id then
    some ("workload ID " ++ spec.id.quote ++ " already exists")
  else if c.fold existing.spec.name = c.fold spec.id then
    some ("workload ID " ++ spec.id.quote ++ " collides with the name of workload " ++
      existing.spec.id)
  else if existing.spec.id = spec.name then
    some ("workload name " ++ spec.name.quote ++ " collides with the ID of workload " ++
      existing.spec.id)
  else none

def Checks.restoreClash (c : Checks β) (spec : WorkloadSpec β) (existing : Workload β) :
    Option String :=
  if c.fold existing.spec.name = c.fold spec.name ∧ existing.spec.id ≠ spec.id then
    some ("workload name " ++ spec.name.quote ++ " already exists")
  else none

def compareAll (clash : Workload β → Option String) (t : Records β) : Except String Unit :=
  match (listWorkloads t).findSome? clash with
  | some message => .error message
  | none => .ok ()

def create (c : Checks β) (ev : Events β) (t : Records β) (spec : WorkloadSpec β) :
    Except String (Workload β × Records β) := do
  let spec ← spec.normalize c ev.newID
  ev.stat spec.rest
  compareAll (c.clash spec) t
  Workload.write ev t ⟨spec, .registered, none, 1⟩

def findWorkload (t : Records β) (idOrName : String) : Except String (Workload β) :=
  match getWorkload t idOrName with
  | some workload => .ok workload
  | none => .error "record not found"

def changeSpec (ev : Events β) (t : Records β) (idOrName : String)
    (refused : WorkloadSpec β → Bool) (message : String)
    (change : WorkloadSpec β → WorkloadSpec β) : Except String (Workload β × Records β) := do
  let w ← findWorkload t idOrName
  refuse (refused w.spec) message
  Workload.write ev t { w with spec := change w.spec }

def setCheckpointPolicy (ev : Events β) (t : Records β) (idOrName : String)
    (policy : Option CheckpointPolicy) : Except String (Workload β × Records β) := do
  policy.forM CheckpointPolicy.validate
  changeSpec ev t idOrName (fun spec => policy.isNone && spec.failoverPolicy.isSome)
    ("workload has a failover policy; remove it first (workload failover NAME --off) " ++
      "or keep a checkpoint schedule")
    fun spec => { spec with checkpointPolicy := policy }

def setFailoverPolicy (c : Checks β) (ev : Events β) (t : Records β) (idOrName : String)
    (policy : Option FailoverPolicy) : Except String (Workload β × Records β) := do
  let policy ← policy.mapM (FailoverPolicy.validate c)
  changeSpec ev t idOrName (fun spec => policy.isSome && spec.checkpointPolicy.isNone) uncovered
    fun spec => { spec with failoverPolicy := policy }

def prepareRestore (c : Checks β) (ev : Events β) (t : Records β) (spec : WorkloadSpec β) :
    Except String (Workload β × Records β) :=
  match getWorkload t spec.id with
  | none => do
    let spec ← spec.normalize c ev.newID
    compareAll (c.restoreClash spec) t
    Workload.write ev t ⟨spec, .restoring, none, 1⟩
  | some w => do
    refuse (w.spec.id ≠ spec.id) ("restore spec id " ++ spec.id.quote ++
      " does not match the workload record it would replace (" ++ w.spec.id ++ ")")
    refuse (c.fold w.spec.name ≠ c.fold spec.name)
      ("restore cannot rename workload " ++ w.spec.name.quote ++ " to " ++ spec.name.quote)
    let spec ← spec.normalize c ev.newID
    refuse (w.process.any ev.alive && w.status ≠ .checkpointed)
      "destination workload is already active"
    Workload.write ev t ⟨spec, .restoring, none, w.generation + 1⟩

def restoreMetadata (ev : Events β) (t : Records β) (w : Workload β) :
    Except String (Records β) := do
  refuse (w.spec.id = "") "workload id is required"
  refuse ((getWorkload t w.spec.id).any fun current => current.process.any ev.alive)
    "cannot replace metadata for an active workload"
  putWorkload ev t w.spec.id w

def deleteWorkload (ev : Events β) (t : Records β) (idOrName : String) :
    Except String (Records β) := do
  let w ← findWorkload t idOrName
  refuse (w.process.any ev.alive) "stop the workload before deleting it"
  refuse (t.get w.spec.id).isNone "record not found"
  ev.write
  return t.erase w.spec.id

/-- The records, and every record that a call has returned. -/
structure Manager (β : Type) where
  records : Records β := .empty
  returned : List (Workload β) := []

/-- What `RestoreMetadata` is given is a record returned earlier. -/
inductive Call (β : Type) where
  | create (spec : WorkloadSpec β)
  | prepareRestore (spec : WorkloadSpec β)
  | restoreMetadata (index : Nat)
  | setCheckpointPolicy (idOrName : String) (policy : Option CheckpointPolicy)
  | setFailoverPolicy (idOrName : String) (policy : Option FailoverPolicy)
  | delete (idOrName : String)

def Manager.settle (m : Manager β) : Except String (Workload β × Records β) → Manager β
  | .ok (workload, records) => ⟨records, workload :: m.returned⟩
  | .error _ => m

def Manager.replace (m : Manager β) : Except String (Records β) → Manager β
  | .ok records => { m with records }
  | .error _ => m

def step (c : Checks β) (m : Manager β) : Call β × Events β → Option (Manager β)
  | (.create spec, ev) => some (m.settle (create c ev m.records spec))
  | (.prepareRestore spec, ev) => some (m.settle (prepareRestore c ev m.records spec))
  | (.restoreMetadata index, ev) =>
    m.returned[index]?.map fun w => m.replace (restoreMetadata ev m.records w)
  | (.setCheckpointPolicy idOrName policy, ev) =>
    some (m.settle (setCheckpointPolicy ev m.records idOrName policy))
  | (.setFailoverPolicy idOrName policy, ev) =>
    some (m.settle (setFailoverPolicy c ev m.records idOrName policy))
  | (.delete idOrName, ev) => some (m.replace (deleteWorkload ev m.records idOrName))

def Clear (c : Checks β) (t : Records β) (spec : WorkloadSpec β) : Prop :=
  ∀ key w, t.get key = some w → key ≠ spec.id →
    c.fold w.spec.name ≠ c.fold spec.name ∧ key ≠ spec.name ∧ w.spec.name ≠ spec.id

structure Distinct (c : Checks β) (t : Records β) : Prop where
  nonempty : t.get "" = none
  keyed : ∀ key w, t.get key = some w → w.spec.id = key
  clear : ∀ key w, t.get key = some w → Clear c t w.spec
  covered : ∀ key w, t.get key = some w → w.spec.Covered

def Unclaimed (ev : Events β) (t : Records β) (spec : WorkloadSpec β) : Prop :=
  ∀ key w, t.get key = some w → key ≠ spec.id →
    key ≠ spec.name ∧ (spec.id = "" → ev.newID ≠ .ok w.spec.name)

def Compared (c : Checks β) (m : Manager β) : Call β × Events β → Prop
  | (.prepareRestore spec, ev) => Unclaimed ev m.records spec
  | (.restoreMetadata index, _) => ∀ w, m.returned[index]? = some w → Clear c m.records w.spec
  | _ => True

variable {c : Checks β} {ev : Events β} {t t' : Records β} {spec spec' : WorkloadSpec β}
  {w : Workload β} {key : String}

variable {u : Unit} {idOrName : String}

@[simp] theorem refuse_eq_ok {condition : Bool} {message : String} :
    refuse condition message = .ok u ↔ condition = false := by
  cases condition <;> simp [refuse]

theorem putWorkload_ok (h : putWorkload ev t key w = .ok t') : key ≠ "" ∧ t' = t.set key w := by
  obtain ⟨_, hkey, h⟩ := bind_ok.mp h
  obtain ⟨-, -, h⟩ := bind_ok.mp h
  exact ⟨by simpa using hkey, (Except.ok.inj h).symm⟩

theorem write_ok {w' : Workload β} (h : w.write ev t = .ok (w', t')) :
    w' = w ∧ w.spec.id ≠ "" ∧ t' = t.set w.spec.id w := by
  obtain ⟨records, hput, h⟩ := bind_ok.mp h
  cases h
  exact ⟨rfl, putWorkload_ok hput⟩

theorem normalize_ok {newID : Except String String} (h : spec.normalize c newID = .ok spec') :
    spec'.name = spec.name ∧ (if spec.id = "" then newID else .ok spec.id) = .ok spec'.id ∧
      spec'.Covered := by
  obtain ⟨-, -, h⟩ := bind_ok.mp h
  obtain ⟨-, -, h⟩ := bind_ok.mp h
  obtain ⟨id, hid, h⟩ := bind_ok.mp h
  obtain ⟨rest, -, h⟩ := bind_ok.mp h
  obtain ⟨-, -, h⟩ := bind_ok.mp h
  obtain ⟨failover, -, h⟩ := bind_ok.mp h
  obtain ⟨_, hcovered, h⟩ := bind_ok.mp h
  obtain ⟨-, -, h⟩ := bind_ok.mp h
  cases h
  refine ⟨rfl, hid, fun hsome => ?_⟩
  simpa [show failover.isSome = true from hsome, isSome_iff_ne_none] using hcovered

theorem mem_listWorkloads : w ∈ listWorkloads t ↔ ∃ key, t.get key = some w := by
  simp only [listWorkloads, mem_filterMap, mem_insertionSort]
  constructor
  · rintro ⟨key, -, h⟩
    exact ⟨key, h⟩
  · rintro ⟨key, h⟩
    exact ⟨key, List.mem_map.mpr ⟨_, mem_entries_of_get h, rfl⟩, h⟩

theorem compareAll_ok {clash : Workload β → Option String} (h : compareAll clash t = .ok u)
    (hw : t.get key = some w) : clash w = none := by
  unfold compareAll at h
  split at h
  · cases h
  · rename_i hnone
    exact findSome?_eq_none_iff.mp hnone w (mem_listWorkloads.mpr ⟨key, hw⟩)

theorem getWorkload_eq_some (h : getWorkload t idOrName = some w) :
    ∃ key, t.get key = some w ∧ (key = idOrName ∨ w.spec.name = idOrName) := by
  rcases or_eq_some_iff.mp h with h | ⟨-, h⟩
  · exact ⟨idOrName, h, .inl rfl⟩
  · obtain ⟨key, hkey⟩ := mem_listWorkloads.mp (mem_of_find?_eq_some h)
    exact ⟨key, hkey, .inr (by simpa using find?_some h)⟩

theorem getWorkload_of_unique (hw : t.get key = some w)
    (h : key = idOrName ∨ w.spec.name = idOrName)
    (hunique : ∀ key' w', t.get key' = some w' → key' = idOrName ∨ w'.spec.name = idOrName →
      key' = key) : getWorkload t idOrName = some w := by
  cases hget : getWorkload t idOrName with
  | some found =>
    obtain ⟨key', hkey', hof⟩ := getWorkload_eq_some hget
    rw [← hw, ← hkey', hunique key' found hkey' hof]
  | none =>
    obtain ⟨hkey, hname⟩ := or_eq_none_iff.mp hget
    rcases h with rfl | h
    · rw [hkey] at hw
      cases hw
    · exact absurd h (by simpa using find?_eq_none.mp hname w (mem_listWorkloads.mpr ⟨key, hw⟩))

namespace Distinct

variable (h : Distinct c t)
include h

theorem set (hne : w.spec.id ≠ "") (hclear : Clear c t w.spec) (hcovered : w.spec.Covered) :
    Distinct c (t.set w.spec.id w) := by
  have hcases : ∀ {key' w'}, (t.set w.spec.id w).get key' = some w' →
      key' = w.spec.id ∧ w' = w ∨ key' ≠ w.spec.id ∧ t.get key' = some w' := by
    intro key' w' hget
    rw [get_set] at hget
    split_ifs at hget with heq
    · exact .inl ⟨heq, (some.inj hget).symm⟩
    · exact .inr ⟨heq, hget⟩
  refine ⟨by rw [get_set_other _ _ hne.symm, h.nonempty], fun key w' hw => ?_,
    fun key w' hw key₂ w₂ hw₂ hne => ?_, fun key w' hw => ?_⟩
  · rcases hcases hw with ⟨rfl, rfl⟩ | ⟨-, hw⟩
    · rfl
    · exact h.keyed key w' hw
  · rcases hcases hw with ⟨rfl, rfl⟩ | ⟨hkey, hw⟩ <;>
      rcases hcases hw₂ with ⟨rfl, rfl⟩ | ⟨hkey₂, hw₂⟩
    · exact absurd rfl hne
    · exact hclear key₂ w₂ hw₂ hkey₂
    · obtain ⟨hnames, hid, hname⟩ := hclear key w' ‹_› hkey
      exact ⟨hnames.symm, hname.symm, fun heq => hid (heq ▸ (h.keyed key w' ‹_›).symm)⟩
    · exact h.clear key w' hw key₂ w₂ hw₂ hne
  · rcases hcases hw with ⟨rfl, rfl⟩ | ⟨-, hw⟩
    · exact hcovered
    · exact h.covered key w' hw

theorem erase (id : String) : Distinct c (t.erase id) := by
  have hcases : ∀ {key w}, (t.erase id).get key = some w → t.get key = some w := by
    intro key w hget
    rw [get_erase] at hget
    split_ifs at hget
    exact hget
  exact ⟨by simp [get_erase, h.nonempty], fun key w hw => h.keyed key w (hcases hw),
    fun key w hw key₂ w₂ hw₂ => h.clear key w (hcases hw) key₂ w₂ (hcases hw₂),
    fun key w hw => h.covered key w (hcases hw)⟩

theorem resolves (hw : t.get key = some w) :
    getWorkload t w.spec.id = some w ∧ getWorkload t w.spec.name = some w := by
  have hkey := h.keyed key w hw
  constructor
  · refine getWorkload_of_unique hw (.inl hkey.symm) fun key' w' hw' hof => ?_
    by_contra hne
    have hclear := h.clear key w hw key' w' hw' (hkey ▸ hne)
    rcases hof with hof | hof
    · exact hne (hof.trans hkey)
    · exact hclear.2.2 hof
  · refine getWorkload_of_unique hw (.inr rfl) fun key' w' hw' hof => ?_
    by_contra hne
    have hclear := h.clear key w hw key' w' hw' (hkey ▸ hne)
    rcases hof with hof | hof
    · exact hclear.2.1 hof
    · exact hclear.1 (congrArg c.fold hof)

end Distinct

def Wrote (c : Checks β) (t : Records β) (w : Workload β) (t' : Records β) : Prop :=
  w.spec.id ≠ "" ∧ t' = t.set w.spec.id w ∧ Clear c t w.spec ∧ w.spec.Covered

theorem findWorkload_ok (h : findWorkload t idOrName = .ok w) : ∃ key, t.get key = some w := by
  unfold findWorkload at h
  split at h
  · rename_i hget
    cases h
    obtain ⟨key, hw, -⟩ := getWorkload_eq_some hget
    exact ⟨key, hw⟩
  · cases h

section Calls

variable (hd : Distinct c t)
include hd

theorem create_ok (h : create c ev t spec = .ok (w, t')) : Wrote c t w t' := by
  obtain ⟨spec', hnormal, h⟩ := bind_ok.mp h
  obtain ⟨-, -, h⟩ := bind_ok.mp h
  obtain ⟨_, hcompare, h⟩ := bind_ok.mp h
  obtain ⟨rfl, hne, rfl⟩ := write_ok h
  refine ⟨hne, rfl, fun key w hw hother => ?_, (normalize_ok hnormal).2.2⟩
  have hclash := compareAll_ok hcompare hw
  have hkey := hd.keyed key w hw
  unfold Checks.clash at hclash
  split_ifs at hclash with hname hid hfold hswap
  exact ⟨hname, hkey ▸ hswap, fun heq => hfold (congrArg c.fold heq)⟩

theorem changeSpec_ok {message : String} {refused : WorkloadSpec β → Bool}
    {change : WorkloadSpec β → WorkloadSpec β}
    (h : changeSpec ev t idOrName refused message change = .ok (w, t'))
    (hsame : ∀ spec, (change spec).id = spec.id ∧ (change spec).name = spec.name)
    (hcovers : ∀ spec, refused spec = false → (change spec).Covered) : Wrote c t w t' := by
  obtain ⟨found, hfind, h⟩ := bind_ok.mp h
  obtain ⟨_, hrefuse, h⟩ := bind_ok.mp h
  obtain ⟨key, hw⟩ := findWorkload_ok hfind
  obtain ⟨rfl, hne, rfl⟩ := write_ok h
  refine ⟨hne, rfl, ?_, hcovers found.spec (refuse_eq_ok.mp hrefuse)⟩
  simpa only [Clear, (hsame found.spec).1, (hsame found.spec).2] using hd.clear key found hw

theorem setCheckpointPolicy_ok {policy : Option CheckpointPolicy}
    (h : setCheckpointPolicy ev t idOrName policy = .ok (w, t')) : Wrote c t w t' := by
  obtain ⟨-, -, h⟩ := bind_ok.mp h
  refine changeSpec_ok hd h (fun _ => ⟨rfl, rfl⟩) fun spec hrefuse hsome => ?_
  simpa [show spec.failoverPolicy.isSome = true from hsome] using hrefuse

theorem setFailoverPolicy_ok {policy : Option FailoverPolicy}
    (h : setFailoverPolicy c ev t idOrName policy = .ok (w, t')) : Wrote c t w t' := by
  obtain ⟨policy', -, h⟩ := bind_ok.mp h
  refine changeSpec_ok hd h (fun _ => ⟨rfl, rfl⟩) fun spec hrefuse hsome => ?_
  simpa [show policy'.isSome = true from hsome] using hrefuse

theorem prepareRestore_ok (hcompared : Unclaimed ev t spec)
    (h : prepareRestore c ev t spec = .ok (w, t')) : Wrote c t w t' := by
  unfold prepareRestore at h
  split at h
  · rename_i hnone
    obtain ⟨spec', hnormal, h⟩ := bind_ok.mp h
    obtain ⟨_, hcompare, h⟩ := bind_ok.mp h
    obtain ⟨rfl, hne, rfl⟩ := write_ok h
    obtain ⟨hsame, hid, hcovered⟩ := normalize_ok hnormal
    refine ⟨hne, rfl, fun key w hw hother => ?_, hcovered⟩
    have hfree : key ≠ spec.id ∧ w.spec.name ≠ spec.id := by
      constructor
      · rintro rfl
        rw [getWorkload, hw] at hnone
        cases hnone
      · intro heq
        have hfind := (or_eq_none_iff.mp hnone).2
        exact find?_eq_none.mp hfind w (mem_listWorkloads.mpr ⟨key, hw⟩) (by simpa using heq)
    obtain ⟨hname, hnew⟩ := hcompared key w hw hfree.1
    have hclash := compareAll_ok hcompare hw
    unfold Checks.restoreClash at hclash
    split_ifs at hclash with hfold
    refine ⟨fun heq => hfold ⟨heq, hd.keyed key w hw ▸ hother⟩, hsame ▸ hname, fun heq => ?_⟩
    split_ifs at hid with hempty
    · exact hnew hempty (heq ▸ hid)
    · exact hfree.2 (heq.trans (Except.ok.inj hid).symm)
  · rename_i found hget
    obtain ⟨_, hsameID, h⟩ := bind_ok.mp h
    obtain ⟨_, hfold, h⟩ := bind_ok.mp h
    obtain ⟨spec', hnormal, h⟩ := bind_ok.mp h
    obtain ⟨-, -, h⟩ := bind_ok.mp h
    obtain ⟨rfl, hne, rfl⟩ := write_ok h
    obtain ⟨key, hfound, -⟩ := getWorkload_eq_some hget
    obtain ⟨hsame, hid, hcovered⟩ := normalize_ok hnormal
    have hsameID : found.spec.id = spec.id := by simpa using hsameID
    have hfold : c.fold found.spec.name = c.fold spec.name := by simpa using hfold
    have hkey := hd.keyed key found hfound
    split_ifs at hid with hempty
    · rw [← hkey, hsameID, hempty, hd.nonempty] at hfound
      cases hfound
    have hid : spec.id = spec'.id := Except.ok.inj hid
    refine ⟨hne, rfl, fun key' w hw hother => ?_, hcovered⟩
    obtain ⟨hnames, -, hnamed⟩ :=
      hd.clear key found hfound key' w hw (hsameID.trans hid ▸ hother)
    exact ⟨hsame ▸ hfold ▸ hnames, hsame ▸ (hcompared key' w hw (hid ▸ hother)).1,
      hid ▸ hsameID ▸ hnamed⟩

end Calls

structure Sound (c : Checks β) (m : Manager β) : Prop where
  distinct : Distinct c m.records
  covered : ∀ w ∈ m.returned, w.spec.Covered

variable {m m' : Manager β}

theorem Sound.settle (h : Sound c m) {result : Except String (Workload β × Records β)}
    (hresult : ∀ w t, result = .ok (w, t) → Wrote c m.records w t) : Sound c (m.settle result) := by
  cases result with
  | error => exact h
  | ok answer =>
    obtain ⟨hne, hset, hclear, hcovered⟩ := hresult answer.1 answer.2 rfl
    refine ⟨?_, forall_mem_cons.mpr ⟨hcovered, h.covered⟩⟩
    simpa only [Manager.settle, hset] using h.distinct.set hne hclear hcovered

theorem Sound.replace (h : Sound c m) {result : Except String (Records β)}
    (hresult : ∀ t, result = .ok t → Distinct c t) : Sound c (m.replace result) := by
  cases result with
  | error => exact h
  | ok t => exact ⟨hresult t rfl, h.covered⟩

theorem step_sound {call : Call β × Events β} (h : Sound c m) (hcompared : Compared c m call)
    (hstep : step c m call = some m') : Sound c m' := by
  obtain ⟨call, ev⟩ := call
  cases call with
  | create spec =>
    cases hstep
    exact h.settle fun _ _ => create_ok h.distinct
  | prepareRestore spec =>
    cases hstep
    exact h.settle fun _ _ => prepareRestore_ok h.distinct hcompared
  | restoreMetadata index =>
    obtain ⟨w, hw, rfl⟩ := map_eq_some_iff.mp hstep
    refine h.replace fun t hput => ?_
    obtain ⟨-, -, hput⟩ := bind_ok.mp hput
    obtain ⟨-, -, hput⟩ := bind_ok.mp hput
    obtain ⟨hne, rfl⟩ := putWorkload_ok hput
    exact h.distinct.set hne (hcompared w hw) (h.covered w (mem_of_getElem? hw))
  | setCheckpointPolicy idOrName policy =>
    cases hstep
    exact h.settle fun _ _ => setCheckpointPolicy_ok h.distinct
  | setFailoverPolicy idOrName policy =>
    cases hstep
    exact h.settle fun _ _ => setFailoverPolicy_ok h.distinct
  | delete idOrName =>
    cases hstep
    refine h.replace fun t hdelete => ?_
    obtain ⟨w, -, hdelete⟩ := bind_ok.mp hdelete
    obtain ⟨-, -, hdelete⟩ := bind_ok.mp hdelete
    obtain ⟨-, -, hdelete⟩ := bind_ok.mp hdelete
    obtain ⟨-, -, hdelete⟩ := bind_ok.mp hdelete
    cases hdelete
    exact h.distinct.erase _

/-- In every run whose restores clash with no other record, names and ids are kept apart, and `Get`
resolves them. -/
theorem names_and_ids_resolve (c : Checks β) {calls : List (Call β × Events β)}
    (hcompared : Meets (step c) (Compared c) {} calls) (hrun : exec (step c) {} calls = some m) :
    Distinct c m.records ∧ ∀ key w, m.records.get key = some w →
      getWorkload m.records w.spec.id = some w ∧ getWorkload m.records w.spec.name = some w := by
  have hempty : Sound c {} := ⟨⟨rfl, nofun, nofun, nofun⟩, nofun⟩
  have hsound := exec_invariant (Sound c) (fun _ _ _ => step_sound) hempty hcompared hrun
  exact ⟨hsound.distinct, fun _ _ hw => hsound.distinct.resolves hw⟩

def plainChecks : Checks Unit := ⟨id, (· = ""), fun _ => true, .ok, fun _ => .ok ()⟩

def quiet : Events Unit := ⟨.ok "new", fun _ => .ok (), fun _ => false, .ok ()⟩

def plainSpec (id name : String) : WorkloadSpec Unit := ⟨id, name, ["run"], none, none, ()⟩

def restoredAndCreated : List (Call Unit × Events Unit) :=
  [(.prepareRestore (plainSpec "a" "web"), quiet), (.create (plainSpec "b" "db"), quiet)]

theorem names_and_ids_resolve_pair : ∃ m, exec (step plainChecks) {} restoredAndCreated = some m ∧
    (getWorkload m.records "db").map (·.spec.id) = some "b" ∧ Distinct plainChecks m.records := by
  have hcompared : Meets (step plainChecks) (Compared plainChecks) {} restoredAndCreated :=
    ⟨nofun, fun _ _ => ⟨trivial, fun _ _ => trivial⟩⟩
  exact exists_some_and (by decide) fun _ hrun _ =>
    (names_and_ids_resolve plainChecks hcompared hrun).1

/-- A restore names a workload by the id of another one, and a record that is put back has a name
that was given away meanwhile. -/
theorem restores_clash :
    (∃ m, exec (step plainChecks) {} [(.create (plainSpec "a" "web"), quiet),
        (.prepareRestore (plainSpec "b" "a"), quiet)] = some m ∧
      (m.records.get "b").map (·.spec.name) = some "a" ∧
      (getWorkload m.records "a").map (·.spec.name) = some "web") ∧
    ∃ m, exec (step plainChecks) {} [(.create (plainSpec "a" "web"), quiet), (.delete "a", quiet),
        (.create (plainSpec "b" "web"), quiet), (.restoreMetadata 1, quiet)] = some m ∧
      (m.records.get "a").map (·.spec.name) = some "web" ∧
      (m.records.get "b").map (·.spec.name) = some "web" := by
  decide

end Shiftgate.Runtime
