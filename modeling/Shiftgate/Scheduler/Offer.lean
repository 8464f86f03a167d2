import Mathlib.Tactic

/-! What a compute offer exposes, what is left of it, and how GPUs are matched
(`internal/scheduler/offer.go`, the capacity checks of `evaluate` in
`internal/scheduler/scheduler.go`, `MatchGPU` in `internal/compatibility/checker.go`).
`strings.EqualFold` compares the folded forms of two strings; `fold` is the folding. -/

namespace Shiftgate.Scheduler

open List

structure GPUDevice where
  vendor : String
  model : String
  memoryBytes : UInt64
  computeCapability : String
  checkpointRestore : Bool
  deriving DecidableEq

structure Resources where
  memoryBytes : UInt64
  storageBytes : UInt64
  gpus : List GPUDevice
  deriving DecidableEq

def digits (text : List Char) : Option Nat :=
  if text ≠ [] ∧ text.all Char.isDigit then
    some (text.foldl (fun n c => 10 * n + (c.toNat - '0'.toNat)) 0)
  else none

def atoi (text : List Char) : Option Int :=
  match text with
  | '-' :: rest => (digits rest).bind fun n => if n ≤ 2 ^ 63 then some (-(n : Int)) else none
  | '+' :: rest => (digits rest).bind fun n => if n < 2 ^ 63 then some (n : Int) else none
  | text => (digits text).bind fun n => if n < 2 ^ 63 then some (n : Int) else none

def parts (value : String) : List (List Char) := value.toList.splitOn '.'

def isDottedNumber (value : String) : Bool :=
  value ≠ "" && (parts value).all fun part => (atoi part).isSome

def partsAtLeast : List (List Char) → List (List Char) → Bool
  | _, [] => true
  | [], _ :: _ => false
  | current :: versionParts, required :: minimumParts =>
    match atoi current, atoi required with
    | some c, some r => if c ≠ r then r < c else partsAtLeast versionParts minimumParts
    | _, _ => false

def versionAtLeast (version minimum : String) : Bool :=
  if minimum = "" then true
  else if version = "" then false
  else partsAtLeast (parts version) (parts minimum)

variable (fold : String → String)

def computeCapabilitySatisfied (required candidate : String) : Bool :=
  if required = "" then true
  else if isDottedNumber required then
    isDottedNumber candidate && versionAtLeast candidate required
  else fold candidate = fold required

def serves (required candidate : GPUDevice) : Bool :=
  fold candidate.vendor = fold required.vendor &&
    computeCapabilitySatisfied fold required.computeCapability candidate.computeCapability &&
    required.memoryBytes ≤ candidate.memoryBytes

def matchFrom (required : GPUDevice) (capabilityMatch : Option GPUDevice) :
    List GPUDevice → Option GPUDevice
  | [] => capabilityMatch
  | candidate :: rest =>
    if serves fold required candidate then
      if fold candidate.model = fold required.model then some candidate
      else matchFrom required (capabilityMatch.or (some candidate)) rest
    else matchFrom required capabilityMatch rest

def matchGPU (required : GPUDevice) (available : List GPUDevice) : Option GPUDevice :=
  matchFrom fold required none available

theorem matchFrom_some {required m : GPUDevice} {capabilityMatch : Option GPUDevice}
    {available : List GPUDevice} (h : matchFrom fold required capabilityMatch available = some m) :
    capabilityMatch = some m ∨ m ∈ available ∧ serves fold required m = true := by
  induction available generalizing capabilityMatch with
  | nil => exact .inl h
  | cons candidate rest ih =>
    rw [matchFrom] at h
    split at h
    · rename_i hserves
      split at h
      · cases h
        exact .inr ⟨by simp, hserves⟩
      · rcases ih h with hbest | ⟨hmem, hm⟩
        · cases capabilityMatch with
          | none =>
            cases hbest
            exact .inr ⟨by simp, hserves⟩
          | some best => exact .inl hbest
        · exact .inr ⟨by simp [hmem], hm⟩
    · rcases ih h with hbest | ⟨hmem, hm⟩
      · exact .inl hbest
      · exact .inr ⟨by simp [hmem], hm⟩

theorem matchGPU_some {required m : GPUDevice} {available : List GPUDevice}
    (h : matchGPU fold required available = some m) :
    m ∈ available ∧ serves fold required m = true :=
  (matchFrom_some fold h).resolve_left nofun

theorem serves_vendor {required candidate : GPUDevice}
    (h : serves fold required candidate = true) : fold candidate.vendor = fold required.vendor := by
  simp only [serves, Bool.and_eq_true, decide_eq_true_eq] at h
  exact h.1.1

def kind (device : GPUDevice) : String × String := (fold device.vendor, fold device.model)

def indexOfGPU (pool : List GPUDevice) (wanted : GPUDevice) : Option Nat :=
  (pool.findIdx? fun device => kind fold device = kind fold wanted).or
    (pool.findIdx? fun device => fold device.vendor = fold wanted.vendor)

def removeGPU (pool : List GPUDevice) (device : GPUDevice) : List GPUDevice :=
  match indexOfGPU fold pool device with
  | none => pool
  | some index => pool.eraseIdx index

def remainingGPUs (pool used : List GPUDevice) : List GPUDevice :=
  used.foldl (removeGPU fold) pool

def subtractBytes (total used : UInt64) : UInt64 :=
  if total ≤ used then 0 else total - used

def Resources.subtract (resources used : Resources) : Resources where
  memoryBytes := subtractBytes resources.memoryBytes used.memoryBytes
  storageBytes := subtractBytes resources.storageBytes used.storageBytes
  gpus := remainingGPUs fold resources.gpus used.gpus

def allocate : List GPUDevice → List GPUDevice → Option (List GPUDevice)
  | pool, [] => some pool
  | pool, required :: rest =>
    match matchGPU fold required pool with
    | none => none
    | some m =>
      if required.checkpointRestore ∧ m.checkpointRestore = false then none
      else allocate (remainingGPUs fold pool [m]) rest

/-- `others` is the outcome of the checks on everything but memory, storage and GPUs. -/
def evaluate (others : Bool) (requirements available : Resources) : Bool :=
  others &&
    !(0 < requirements.memoryBytes && available.memoryBytes < requirements.memoryBytes) &&
    !(0 < requirements.storageBytes && available.storageBytes < requirements.storageBytes) &&
    (allocate fold available.gpus requirements.gpus).isSome

theorem subtractBytes_toNat (total used : UInt64) :
    (subtractBytes total used).toNat = total.toNat - used.toNat := by
  unfold subtractBytes
  split
  · rename_i h
    have hle : total.toNat ≤ used.toNat := UInt64.le_iff_toNat_le.mp h
    simp [Nat.sub_eq_zero_of_le hle]
  · rename_i h
    exact UInt64.toNat_sub_of_le _ _ (UInt64.le_iff_toNat_le.mpr
      (Nat.le_of_not_le fun hle => h (UInt64.le_iff_toNat_le.mpr hle)))

theorem fits_of_check {total used required : UInt64}
    (h : (!(0 < required && subtractBytes total used < required)) = true)
    (hused : used.toNat ≤ total.toNat) : used.toNat + required.toNat ≤ total.toNat := by
  simp only [Bool.not_eq_true', Bool.and_eq_false_iff, decide_eq_false_iff_not,
    UInt64.lt_iff_toNat_lt, subtractBytes_toNat, UInt64.toNat_zero] at h
  omega

theorem evaluate_accepts {others : Bool} {requirements available : Resources}
    (h : evaluate fold others requirements available = true) :
    (!(0 < requirements.memoryBytes && available.memoryBytes < requirements.memoryBytes)) = true ∧
    (!(0 < requirements.storageBytes && available.storageBytes < requirements.storageBytes)) =
      true ∧ ∃ pool, allocate fold available.gpus requirements.gpus = some pool := by
  simp only [evaluate, Bool.and_eq_true] at h
  exact ⟨h.1.1.2, h.1.2, Option.isSome_iff_exists.mp h.2⟩

/-- A removed device has the vendor of the wanted one, and its model too when the pool has one;
nothing is removed only from a pool without the vendor. -/
inductive Removal (pool : List GPUDevice) (wanted : GPUDevice) : List GPUDevice → Prop
  | absent : (∀ device ∈ pool, fold device.vendor ≠ fold wanted.vendor) →
      Removal pool wanted pool
  | exact {device left} : (device :: left).Perm pool → kind fold device = kind fold wanted →
      Removal pool wanted left
  | substitute {device left} : (device :: left).Perm pool →
      fold device.vendor = fold wanted.vendor →
      (∀ other ∈ pool, kind fold other ≠ kind fold wanted) → Removal pool wanted left

theorem perm_of_findIdx {α : Type} {p : α → Bool} {l : List α} {i : Nat}
    (h : l.findIdx? p = some i) : ∃ x, p x = true ∧ (x :: l.eraseIdx i).Perm l := by
  obtain ⟨hi, hp, _⟩ := findIdx?_eq_some_iff_getElem.mp h
  exact ⟨l[i], hp, getElem_cons_eraseIdx_perm hi⟩

theorem removeGPU_removal (pool : List GPUDevice) (wanted : GPUDevice) :
    Removal fold pool wanted (removeGPU fold pool wanted) := by
  unfold removeGPU indexOfGPU
  cases hkind : pool.findIdx? fun device => kind fold device = kind fold wanted with
  | some i =>
    obtain ⟨device, hdevice, hperm⟩ := perm_of_findIdx hkind
    exact .exact hperm (of_decide_eq_true hdevice)
  | none =>
    have hnone : ∀ other ∈ pool, kind fold other ≠ kind fold wanted := by
      simpa using findIdx?_eq_none_iff.mp hkind
    cases hvendor : pool.findIdx? fun device => fold device.vendor = fold wanted.vendor with
    | some i =>
      obtain ⟨device, hdevice, hperm⟩ := perm_of_findIdx hvendor
      exact .substitute hperm (of_decide_eq_true hdevice) hnone
    | none =>
      refine .absent ?_
      simpa using findIdx?_eq_none_iff.mp hvendor

def vendorCount (vendor : String) (devices : List GPUDevice) : Nat :=
  devices.countP fun device => fold device.vendor = vendor

def kindCount (k : String × String) (devices : List GPUDevice) : Nat :=
  devices.countP fun device => kind fold device = k

theorem vendorCount_removeGPU (vendor : String) (pool : List GPUDevice) (wanted : GPUDevice) :
    vendorCount fold vendor (removeGPU fold pool wanted) =
      vendorCount fold vendor pool - vendorCount fold vendor [wanted] := by
  have hremoval := removeGPU_removal fold pool wanted
  generalize removeGPU fold pool wanted = left at hremoval ⊢
  cases hremoval with
  | absent hnone =>
    by_cases hv : fold wanted.vendor = vendor
    · have hzero : vendorCount fold vendor pool = 0 := by
        refine countP_eq_zero.mpr fun device hdevice => ?_
        simpa [hv] using hnone device hdevice
      omega
    · simp [vendorCount, hv]
  | exact hperm hkind =>
    have hv := congrArg Prod.fst hkind
    simp only [kind] at hv
    simp [vendorCount, ← hperm.countP_eq, countP_cons, hv]
  | substitute hperm hv _ =>
    simp [vendorCount, ← hperm.countP_eq, countP_cons, hv]

theorem kindCount_removeGPU (k : String × String) (pool : List GPUDevice) (wanted : GPUDevice) :
    kindCount fold k (removeGPU fold pool wanted) ≤
      kindCount fold k pool - kindCount fold k [wanted] := by
  have hwithout : (∀ other ∈ pool, kind fold other ≠ kind fold wanted) →
      kindCount fold k pool ≤ kindCount fold k pool - kindCount fold k [wanted] := by
    intro hnone
    by_cases hk : kind fold wanted = k
    · have hzero : kindCount fold k pool = 0 := by
        refine countP_eq_zero.mpr fun device hdevice => ?_
        simpa [← hk] using hnone device hdevice
      omega
    · simp [kindCount, hk]
  have hremoval := removeGPU_removal fold pool wanted
  generalize removeGPU fold pool wanted = left at hremoval ⊢
  cases hremoval with
  | absent hnone =>
    exact hwithout fun other hother heq => hnone other hother (congrArg Prod.fst heq)
  | exact hperm hkind => simp [kindCount, ← hperm.countP_eq, countP_cons, hkind]
  | substitute hperm _ hnone =>
    refine le_trans ?_ (hwithout hnone)
    simp [kindCount, ← hperm.countP_eq, countP_cons]

theorem vendorCount_cons (vendor : String) (device : GPUDevice) (rest : List GPUDevice) :
    vendorCount fold vendor (device :: rest) =
      vendorCount fold vendor [device] + vendorCount fold vendor rest := by
  rw [vendorCount, ← singleton_append, countP_append]
  rfl

theorem kindCount_cons (k : String × String) (device : GPUDevice) (rest : List GPUDevice) :
    kindCount fold k (device :: rest) = kindCount fold k [device] + kindCount fold k rest := by
  rw [kindCount, ← singleton_append, countP_append]
  rfl

theorem vendorCount_remainingGPUs (vendor : String) (pool used : List GPUDevice) :
    vendorCount fold vendor (remainingGPUs fold pool used) =
      vendorCount fold vendor pool - vendorCount fold vendor used := by
  induction used generalizing pool with
  | nil => simp [remainingGPUs, vendorCount]
  | cons device rest ih =>
    have hrest := ih (removeGPU fold pool device)
    rw [vendorCount_removeGPU] at hrest
    rw [vendorCount_cons]
    exact hrest.trans (Nat.sub_sub _ _ _)

theorem kindCount_remainingGPUs (k : String × String) (pool used : List GPUDevice) :
    kindCount fold k (remainingGPUs fold pool used) ≤
      kindCount fold k pool - kindCount fold k used := by
  induction used generalizing pool with
  | nil => simp [remainingGPUs, kindCount]
  | cons device rest ih =>
    have hfirst := kindCount_removeGPU fold k pool device
    have hrest : kindCount fold k (remainingGPUs fold pool (device :: rest)) ≤ _ :=
      ih (removeGPU fold pool device)
    rw [kindCount_cons]
    omega

theorem removeGPU_sublist (pool : List GPUDevice) (device : GPUDevice) :
    (removeGPU fold pool device).Sublist pool := by
  unfold removeGPU
  split
  · exact List.Sublist.refl pool
  · exact eraseIdx_sublist pool _

theorem remainingGPUs_sublist (pool used : List GPUDevice) :
    (remainingGPUs fold pool used).Sublist pool := by
  induction used generalizing pool with
  | nil => exact List.Sublist.refl pool
  | cons device rest ih =>
    exact (ih (removeGPU fold pool device)).trans (removeGPU_sublist fold pool device)

end Shiftgate.Scheduler
