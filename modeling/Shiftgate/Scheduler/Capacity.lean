import Shiftgate.Library.Matching
import Shiftgate.Scheduler.Reservations

/-! Capacity is not sold twice: bytes never, and GPUs as long as the devices that serve a request
are all of its vendor or exactly those of its vendor and model. The accounting removes the requested
device and not the granted one. -/

namespace Shiftgate.Scheduler

open Library List

variable (fold : String → String) (exposed : Resources)

def AnyOfVendor (wanted : GPUDevice) : Prop :=
  ∀ device ∈ exposed.gpus, fold device.vendor = fold wanted.vendor →
    serves fold wanted device = true

def OnlyOfKind (wanted : GPUDevice) : Prop :=
  ∀ device ∈ exposed.gpus, serves fold wanted device = true ↔ kind fold device = kind fold wanted

def Unserved (wanted : GPUDevice) : Prop :=
  ∀ device ∈ exposed.gpus, serves fold wanted device = false

def Interchangeable (wanted : GPUDevice) : Prop :=
  Unserved fold exposed wanted ∨ AnyOfVendor fold exposed wanted ∨ OnlyOfKind fold exposed wanted

instance : DecidablePred (AnyOfVendor fold exposed) := fun _ =>
  inferInstanceAs (Decidable (∀ device ∈ exposed.gpus, _ → _))

instance : DecidablePred (OnlyOfKind fold exposed) := fun _ =>
  inferInstanceAs (Decidable (∀ device ∈ exposed.gpus, _ ↔ _))

instance : DecidablePred (Unserved fold exposed) := fun _ =>
  inferInstanceAs (Decidable (∀ device ∈ exposed.gpus, _))

instance : DecidablePred (Interchangeable fold exposed) := fun _ =>
  inferInstanceAs (Decidable (_ ∨ _ ∨ _))

def Plain (_ : State) : Action → Prop
  | .create requested _ _ _ _ => ∀ device ∈ requested.gpus, Interchangeable fold exposed device
  | .tick _ | .update _ _ | .expire _ => True

instance (s : State) : DecidablePred (Plain fold exposed s)
  | .create requested _ _ _ _ =>
    inferInstanceAs (Decidable (∀ device ∈ requested.gpus, Interchangeable fold exposed device))
  | .tick _ | .update _ _ | .expire _ => isTrue trivial

def narrowCount (k : String × String) (wanted : List GPUDevice) : Nat :=
  wanted.countP fun device => ¬ AnyOfVendor fold exposed device ∧ kind fold device = k

theorem allocate_cons {pool rest left : List GPUDevice} {d : GPUDevice}
    (h : allocate fold pool (d :: rest) = some left) : ∃ m ∈ pool, serves fold d m = true ∧
      allocate fold (remainingGPUs fold pool [m]) rest = some left := by
  rw [allocate] at h
  split at h
  · cases h
  · rename_i m hm
    obtain ⟨hmem, hd⟩ := matchGPU_some fold hm
    split at h
    · cases h
    · exact ⟨m, hmem, hd, h⟩

theorem allocate_count {p q : GPUDevice → Bool} {pool wanted left : List GPUDevice}
    (hserves : ∀ d ∈ wanted, ∀ m ∈ pool, serves fold d m = true → p d = true → q m = true)
    (hremove : ∀ pool m, m ∈ pool →
      (removeGPU fold pool m).countP q + [m].countP q ≤ pool.countP q)
    (h : allocate fold pool wanted = some left) : wanted.countP p ≤ pool.countP q := by
  induction wanted generalizing pool with
  | nil => simp
  | cons d rest ih =>
    obtain ⟨m, hmem, hd, h⟩ := allocate_cons fold h
    have hrest := ih (fun e he g hg => hserves e (by simp [he]) g
      ((remainingGPUs_sublist fold pool [m]).subset hg)) h
    have hpool := hremove pool m hmem
    have hone : [d].countP p ≤ [m].countP q := by
      have himp := hserves d (by simp) m hmem hd
      cases hp : p d <;> simp [hp, himp]
    rw [← singleton_append, countP_append]
    exact (Nat.add_le_add hone hrest).trans (by rw [Nat.add_comm]; exact hpool)

theorem allocate_served {pool wanted left : List GPUDevice}
    (h : allocate fold pool wanted = some left) :
    ∀ d ∈ wanted, ∃ m ∈ pool, serves fold d m = true := by
  induction wanted generalizing pool with
  | nil => simp
  | cons d rest ih =>
    obtain ⟨m, hmem, hd, h⟩ := allocate_cons fold h
    intro e he
    rcases mem_cons.mp he with rfl | he
    · exact ⟨m, hmem, hd⟩
    · obtain ⟨g, hg, hserves⟩ := ih h e he
      exact ⟨g, (remainingGPUs_sublist fold pool [m]).subset hg, hserves⟩

theorem allocate_vendors {pool wanted left : List GPUDevice}
    (h : allocate fold pool wanted = some left) (vendor : String) :
    vendorCount fold vendor wanted ≤ vendorCount fold vendor pool := by
  refine allocate_count fold (fun d _ m _ hserves hd => ?_) (fun pool m hm => ?_) h
  · simpa [serves_vendor fold hserves] using hd
  · have hone : vendorCount fold vendor [m] ≤ vendorCount fold vendor pool :=
      (singleton_sublist.mpr hm).countP_le
    have hleft := vendorCount_removeGPU fold vendor pool m
    simp only [vendorCount] at hone hleft ⊢
    omega

theorem allocate_kinds {pool wanted left : List GPUDevice} (hpool : pool ⊆ exposed.gpus)
    (hplain : ∀ d ∈ wanted, Interchangeable fold exposed d)
    (h : allocate fold pool wanted = some left) (k : String × String) :
    narrowCount fold exposed k wanted ≤ kindCount fold k pool := by
  refine allocate_count fold (fun d hd m hm hserves hnarrow => ?_) (fun pool m hm => ?_) h
  · simp only [decide_eq_true_eq] at hnarrow ⊢
    rcases hplain d hd with hnone | hany | honly
    · exact absurd (hnone m (hpool hm)) (by simp [hserves])
    · exact absurd hany hnarrow.1
    · exact ((honly m (hpool hm)).mp hserves).trans hnarrow.2
  · have hone : kindCount fold k [m] ≤ kindCount fold k pool :=
      (singleton_sublist.mpr hm).countP_le
    have hleft := kindCount_removeGPU fold k pool m
    simp only [kindCount] at hone hleft ⊢
    omega

/-- The requests fit in the offer. `F` is what the part about kinds rests on. -/
structure Within (F : Prop) (requested : List Resources) : Prop where
  memory : memorySum requested ≤ exposed.memoryBytes.toNat
  storage : storageSum requested ≤ exposed.storageBytes.toNat
  vendors : ∀ vendor, vendorCount fold vendor (devices requested) ≤
    vendorCount fold vendor exposed.gpus
  kinds : F → ∀ k, narrowCount fold exposed k (devices requested) ≤ kindCount fold k exposed.gpus
  served : F → ∀ d ∈ devices requested, AnyOfVendor fold exposed d ∨ OnlyOfKind fold exposed d

variable {fold exposed}

variable {F : Prop} {requested : List Resources}

theorem Within.mono {fewer : List Resources} (h : Within fold exposed F requested)
    (hfewer : fewer.Subperm requested) : Within fold exposed F fewer := by
  obtain ⟨middle, hperm, hsub⟩ := hfewer
  have hdevices : (devices fewer).Subperm (devices requested) :=
    ⟨devices middle, hperm.flatMap_right _, hsub.flatMap _⟩
  refine ⟨?_, ?_, fun v => (hdevices.countP_le _).trans (h.vendors v),
    fun hF k => (hdevices.countP_le _).trans (h.kinds hF k),
    fun hF d hd => h.served hF d (hdevices.subset hd)⟩
  · rw [memorySum, ← (hperm.map _).sum_eq]
    exact (Sublist.sum_le_sum (hsub.map _) (by simp)).trans h.memory
  · rw [storageSum, ← (hperm.map _).sum_eq]
    exact (Sublist.sum_le_sum (hsub.map _) (by simp)).trans h.storage

theorem Within.grant {committed request : Resources} {others : Bool}
    (h : Within fold exposed F requested)
    (hmemory : committed.memoryBytes.toNat = memorySum requested)
    (hstorage : committed.storageBytes.toNat = storageSum requested)
    (hgpus : committed.gpus = devices requested)
    (haccept : evaluate fold others request (exposed.subtract fold committed) = true)
    (hplain : F → ∀ d ∈ request.gpus, Interchangeable fold exposed d) :
    Within fold exposed F (requested ++ [request]) := by
  obtain ⟨hm, hs, left, halloc⟩ := evaluate_accepts fold haccept
  have hpool : (exposed.subtract fold committed).gpus ⊆ exposed.gpus :=
    (remainingGPUs_sublist fold _ _).subset
  have hdevices : devices (requested ++ [request]) = devices requested ++ request.gpus := by
    simp [devices]
  refine ⟨?_, ?_, fun v => ?_, fun hF k => ?_, fun hF d hd => ?_⟩
  · have hfits := fits_of_check hm (hmemory ▸ h.memory)
    simpa [memorySum, hmemory] using hfits
  · have hfits := fits_of_check hs (hstorage ▸ h.storage)
    simpa [storageSum, hstorage] using hfits
  · have hnew := allocate_vendors fold halloc v
    have hleft := vendorCount_remainingGPUs fold v exposed.gpus committed.gpus
    have hold := h.vendors v
    simp only [Resources.subtract, hgpus] at hnew hleft
    rw [hdevices, vendorCount, countP_append]
    simp only [vendorCount] at hnew hleft hold ⊢
    omega
  · have hnew := allocate_kinds fold exposed hpool (hplain hF) halloc k
    have hleft := kindCount_remainingGPUs fold k exposed.gpus committed.gpus
    have hold := h.kinds hF k
    have hnarrow : narrowCount fold exposed k (devices requested) ≤
        kindCount fold k (devices requested) :=
      countP_mono_left fun d _ hd => by simpa using (of_decide_eq_true hd).2
    simp only [Resources.subtract, hgpus] at hnew hleft
    rw [hdevices, narrowCount, countP_append]
    simp only [narrowCount] at hnew hold hnarrow ⊢
    omega
  · rw [hdevices, mem_append] at hd
    rcases hd with hd | hd
    · exact h.served hF d hd
    · obtain ⟨m, hm, hserves⟩ := allocate_served fold halloc d hd
      exact (hplain hF d hd).resolve_left fun hnone => by simp [hnone m (hpool hm)] at hserves

theorem Within.assignable (h : Within fold exposed True requested) :
    Assignable (fun d g => serves fold d g = true) (devices requested) exposed.gpus := by
  have hclasses : Assignable (AcceptsClass (kind fold) (fun d => ¬ AnyOfVendor fold exposed d)
      (kind fold) Prod.fst) (devices requested) exposed.gpus :=
    assignable_of_counts h.vendors (h.kinds trivial)
  refine hclasses.imp fun d hd g hg haccepts => ?_
  by_cases hany : AnyOfVendor fold exposed d
  · exact hany g hg haccepts.1
  · have honly := (h.served trivial d hd).resolve_left hany
    exact (honly g hg).mpr (haccepts.2 hany)

theorem liveRows_live {rows : List Reservation} {began : Nat} {row : Reservation}
    (hrow : row ∈ liveRows (expireRows rows began)) :
    row.state.terminal = false ∧ began < row.expiresAt := by
  have hmem := (perm_insertionSort _ _).mem_iff.mp hrow
  rw [unsettled_expireRows] at hmem
  obtain ⟨hunsettled, hexpires⟩ := mem_filter.mp hmem
  exact ⟨by simpa using (mem_filter.mp hunsettled).2, of_decide_eq_true hexpires⟩

theorem step_within {s t : State} {a : Action}
    (h : Within fold exposed F (requests (unsettled s.rows))) (hplain : F → Plain fold exposed s a)
    (hstep : step fold exposed s a = some t) :
    Within fold exposed F (requests (unsettled t.rows)) := by
  cases step_effect fold exposed hstep with
  | fewer hsub => exact h.mono hsub.subperm
  | created requested started began ttl others ha hclock haccept hrows =>
    subst ha
    have hperm : (requests (liveRows (expireRows s.rows began))).Perm
        (requests (unsettled (expireRows s.rows began))) := (perm_insertionSort _ _).map _
    have hlive := h.mono (hperm.subperm.trans (expireRows_requests s.rows began).subperm)
    obtain ⟨hmemory, hstorage, hgpus⟩ := committedFrom_spec
      (fun _ hrow => ⟨(liveRows_live hrow).1, hclock.trans_lt (liveRows_live hrow).2⟩)
      (hlive.memory.trans_lt (UInt64.toNat_lt _)) (hlive.storage.trans_lt (UInt64.toNat_lt _))
    have hgrant := hlive.grant hmemory hstorage hgpus haccept hplain
    refine hgrant.mono ?_
    have hnew : requests (unsettled t.rows) =
        requests (unsettled (expireRows s.rows began)) ++ [requested] := by
      simp [hrows, unsettled, requests, ReservationState.terminal]
    rw [hnew]
    exact (hperm.symm.append_right _).subperm

theorem initial_within (F : Prop) (now : Nat) :
    Within fold exposed F (requests (unsettled (initial now).rows)) := by
  constructor <;> simp [initial, unsettled, requests, memorySum, storageSum, devices, vendorCount,
    narrowCount]

theorem held_subperm (s : State) : (requests (held s)).Subperm (requests (unsettled s.rows)) :=
  (requests_sublist filter_sublist).subperm

/-- In every state of every run the bytes held fit in the offer. When every creation asks only for
devices that the accounting gets right, the requested GPUs have distinct devices that serve them. -/
theorem capacity_sold_once {now : Nat} {as : List Action} {s : State}
    (hr : exec (step fold exposed) (initial now) as = some s) :
    memorySum (requests (held s)) ≤ exposed.memoryBytes.toNat ∧
      storageSum (requests (held s)) ≤ exposed.storageBytes.toNat ∧
      (Meets (step fold exposed) (Plain fold exposed) (initial now) as →
        Assignable (fun d g => serves fold d g = true) (devices (requests (held s)))
          exposed.gpus) := by
  have hbytes : Within fold exposed False (requests (held s)) :=
    (Reachable.invariant (fun s => Within fold exposed False (requests (unsettled s.rows)))
      (fun _ _ _ h hstep => step_within h False.elim hstep) (initial_within False now)
      ⟨as, hr⟩).mono (held_subperm s)
  refine ⟨hbytes.memory, hbytes.storage, fun hmeets => ?_⟩
  have hall := exec_invariant (fun s => Within fold exposed True (requests (unsettled s.rows)))
    (fun _ _ _ h hplain hstep => step_within h (fun _ => hplain) hstep)
    (initial_within True now) hmeets hr
  exact (hall.mono (held_subperm s)).assignable

namespace Sample

def foldASCII (text : String) : String := String.ofList (text.toList.map Char.toLower)

def small : GPUDevice := ⟨"nvidia", "T4", 16, "7.5", true⟩

def large : GPUDevice := ⟨"NVIDIA", "A100", 80, "8.0", true⟩

def machine : Resources := ⟨100, 100, [small, large]⟩

def anyLarge : Resources := ⟨10, 10, [⟨"nvidia", "", 80, "", false⟩]⟩

def oneSmall : Resources := ⟨10, 10, [⟨"nvidia", "", 16, "", false⟩]⟩

def oneLarge : Resources := ⟨10, 10, [⟨"nvidia", "a100", 80, "8", false⟩]⟩

def twice (first second : Resources) : List Action :=
  [.create first 0 0 60 true, .tick 5, .create second 5 5 60 true, .update 0 .active]

end Sample

open Sample

theorem large_and_small_device_sold_once :
    ∃ s, exec (step Sample.foldASCII Sample.machine) (initial 0)
        (Sample.twice Sample.oneLarge Sample.oneSmall) = some s ∧ (held s).length = 2 ∧
      memorySum (requests (held s)) ≤ 100 ∧
      Assignable (fun d g => serves Sample.foldASCII d g = true) (devices (requests (held s)))
        Sample.machine.gpus := by
  refine exists_some_and (by decide) fun s hs _ => ?_
  obtain ⟨hmemory, _, hgpus⟩ := capacity_sold_once hs
  exact ⟨hmemory, hgpus (by decide)⟩

/-- Two requests for a large device are granted on a machine with one: the first removes the small
device. -/
theorem large_device_sold_twice :
    ∃ s, exec (step Sample.foldASCII Sample.machine) (initial 0)
        (Sample.twice Sample.anyLarge Sample.anyLarge) = some s ∧
      ¬ Assignable (fun d g => serves Sample.foldASCII d g = true) (devices (requests (held s)))
        Sample.machine.gpus := by
  obtain ⟨s, hs, hheld⟩ : ∃ s, exec (step foldASCII machine) (initial 0)
      (twice anyLarge anyLarge) = some s ∧
      requests (held s) = [anyLarge, anyLarge] := by decide
  refine ⟨s, hs, ?_⟩
  rw [hheld]
  rintro ⟨f, hf, hserves⟩
  -- Only the second device serves either request.
  have honly : ∀ i j, serves foldASCII
      ((devices [anyLarge, anyLarge]).get i) (machine.gpus.get j) = true →
      j = ⟨1, by decide⟩ := by decide
  have hsame : f ⟨0, by decide⟩ = f ⟨1, by decide⟩ :=
    (honly _ _ (hserves _)).trans (honly _ _ (hserves _)).symm
  exact absurd (hf hsame) (by decide)

end Shiftgate.Scheduler
