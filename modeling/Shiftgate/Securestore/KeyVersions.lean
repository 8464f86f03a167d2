import Shiftgate.Securestore.KeyRuns

/-! The version a data key is returned with. A rotation at the largest version starts again at zero,
so versions can repeat; the last record's version is still its own. -/

namespace Shiftgate.Securestore

open Library List Option

structure TopOnce (versions : List UInt32) : Prop where
  sorted : versions.Pairwise (· ≤ ·)
  once : ∀ top ∈ versions.getLast?, versions.count top = 1

theorem le_getLast?_of_sorted {versions : List UInt32} {top v : UInt32}
    (h : versions.Pairwise (· ≤ ·)) (htop : versions.getLast? = some top) (hv : v ∈ versions) :
    v ≤ top := by
  obtain ⟨before, rfl⟩ := getLast?_eq_some_iff.mp htop
  rcases mem_append.mp hv with hv | hv
  · exact (pairwise_append.mp h).2.2 v hv top (by simp)
  · rw [mem_singleton.mp hv]
    exact UInt32.le_refl top

theorem TopOnce.insert {versions out : List UInt32} {v : UInt32} (h : TopOnce versions)
    (hv : ∀ top ∈ versions.getLast?, v ≠ top) (hperm : out.Perm (versions ++ [v]))
    (hsorted : out.Pairwise (· ≤ ·)) : TopOnce out := by
  refine ⟨hsorted, fun top htop => ?_⟩
  have hmem : ∀ u ∈ versions ++ [v], u ≤ top := fun u hu =>
    le_getLast?_of_sorted hsorted htop (hperm.mem_iff.mpr hu)
  have hin : top ∈ versions ++ [v] := hperm.mem_iff.mp (mem_of_getLast? htop)
  rw [hperm.count_eq, count_append]
  cases hlast : versions.getLast? with
  | none =>
    have hnil : versions = [] := getLast?_eq_none_iff.mp hlast
    subst hnil
    simp only [nil_append, mem_singleton] at hin
    simp [hin]
  | some old =>
    have hold : old ≤ top := hmem old (by simp [mem_of_getLast? hlast])
    by_cases heq : top = v
    · -- The new version is the largest, so it was not there: it would have been the last.
      have hnew : v ∉ versions := fun hmem' =>
        hv old hlast (UInt32.le_antisymm (le_getLast?_of_sorted h.sorted hlast hmem') (heq ▸ hold))
      simp [heq, count_eq_zero_of_not_mem hnew]
    · have htop' : top ∈ versions := by simpa [heq] using hin
      have hsame : top = old :=
        UInt32.le_antisymm (le_getLast?_of_sorted h.sorted hlast htop') hold
      rw [hsame, h.once old hlast, count_eq_zero_of_not_mem]
      simpa [← hsame] using heq

def Disk.Ordered (disk : Disk) : Prop :=
  ∀ path records, disk.workloadKeys.get path = some records →
    TopOnce (records.map (·.keyVersion))

variable {disk : Disk} {version : UInt32} {key : Bytes} {nonceFor : WrappedKeyRecord → Nonce}
  {wrapKey : Option Key} {record : WrappedKeyRecord}

theorem Disk.Ordered.set {path : String} {records : List WrappedKeyRecord} (h : disk.Ordered)
    (hr : TopOnce (records.map (·.keyVersion))) : (disk.setWorkloadKeys path records).Ordered := by
  intro other found hget
  rw [Disk.setWorkloadKeys, FileTable.get_set] at hget
  split at hget
  · cases hget
    exact hr
  · exact h other found hget

variable {c : Primitives} {s : Store} {fault : Fault} {nonce : Nonce} {fresh : Key}
  {workloadID : String} {records : List WrappedKeyRecord}

theorem Disk.Ordered.loaded (h : s.disk.Ordered)
    (hload : loadOrEmpty c s.disk workloadID = .ok records) :
    TopOnce (records.map (·.keyVersion)) := by
  rcases loadOrEmpty_ok hload with ⟨-, rfl⟩ | ⟨hget, -⟩
  · exact ⟨.nil, by simp⟩
  · exact h _ _ hget

section

variable (hs : s.disk.Ordered)

include hs

theorem wp_storeWorkloadKey_ordered (hload : loadOrEmpty c s.disk workloadID = .ok records)
    (hv : ∀ r ∈ records.getLast?, version ≠ r.keyVersion) :
    wp (storeWorkloadKey c fault workloadID version nonce key records)
      (.always fun t => t.disk.Ordered) s := by
  simp only [storeWorkloadKey, wp_bind, wp_get]
  refine wp_liftExcept (fun record hwrap => ?_) fun _ => hs
  simp only [writeWorkloadFile, wp_effect]
  refine ⟨fun _ => hs.set ?_, fun _ => hs, fun _ => hs⟩
  obtain ⟨-, -, hversion, -, -⟩ := wrapRecord_ok hwrap
  refine (hs.loaded hload).insert (v := version) ?_ ?_ ?_
  · intro top htop
    rw [getLast?_map] at htop
    obtain ⟨r, hr, rfl⟩ := map_eq_some_iff.mp htop
    exact hv r hr
  · rw [← hversion]
    simpa using (perm_insertionSort (·.keyVersion ≤ ·.keyVersion)
      (records ++ [record])).map (·.keyVersion)
  · exact pairwise_map.mpr (pairwise_insertionSort
      (fun a b : WrappedKeyRecord => a.keyVersion ≤ b.keyVersion) (records ++ [record]))

theorem wp_getOrCreateWorkloadKey_ordered :
    wp (getOrCreateWorkloadKey c fault fresh nonce workloadID)
      (.always fun t => t.disk.Ordered) s := by
  simp only [getOrCreateWorkloadKey, wp_bind, wp_get]
  refine wp_liftExcept (fun records hload => ?_) fun _ => hs
  dsimp only
  cases hlast : records.getLast? with
  | none =>
    have hnil : records = [] := getLast?_eq_none_iff.mp hlast
    subst hnil
    simp only [wp_bind]
    exact wp_storeWorkloadKey_ordered hs hload (by simp)
  | some record =>
    simp only [wp_bind]
    cases unwrap c s.manager record <;> exact hs

theorem wp_importWorkloadKey_ordered :
    wp (importWorkloadKey c fault nonce workloadID version key)
      (.always fun t => t.disk.Ordered) s := by
  rw [importWorkloadKey, wp_ite]
  refine ⟨fun _ => hs, fun _ => ?_⟩
  simp only [wp_bind, wp_get]
  refine wp_liftExcept (fun records hload => ?_) fun _ => hs
  dsimp only
  cases hfind : records.find? (·.keyVersion == version) with
  | none =>
    refine wp_storeWorkloadKey_ordered hs hload fun r hr heq => ?_
    exact find?_eq_none.mp hfind r (mem_of_getLast? hr) (by simp [heq])
  | some record =>
    simp only [wp_bind]
    cases unwrap c s.manager record with
    | error e => exact hs
    | ok existing =>
      simp only [wp_liftExcept_ok, wp_ite]
      exact ⟨fun _ => hs, fun _ => hs⟩

theorem wp_rotateWorkloadKey_ordered :
    wp (rotateWorkloadKey c fault fresh nonce workloadID)
      (.always fun t => t.disk.Ordered) s := by
  simp only [rotateWorkloadKey, wp_bind, wp_get]
  refine wp_liftExcept (fun records hload => ?_) fun _ => hs
  simp only [wp_bind]
  refine wp_storeWorkloadKey_ordered hs hload fun r hr => ?_
  simp only [nextKeyVersion, mem_def.mp hr]
  simp

end

theorem wp_rewrapFiles_ordered {faults : String → Fault} (paths : List String)
    (hs : s.disk.Ordered) :
    wp (rewrapFiles c faults nonceFor paths) (.always fun t => t.disk.Ordered) s := by
  induction paths generalizing s with
  | nil => exact hs
  | cons path rest ih =>
    simp only [rewrapFiles, rewrapWorkloadFile, wp_bind, wp_get]
    cases hget : s.disk.workloadKeys.get path with
    | none => exact hs
    | some records =>
      simp only [wp_bind]
      refine wp_liftExcept (fun out hout => ?_) fun _ => hs
      simp only [writeWorkloadFile, wp_effect]
      refine ⟨fun _ => ih (hs.set ?_), fun _ => hs, fun _ => hs⟩
      rw [forall₂_map_keyVersion (rewrapRecords_ok hout)]
      exact hs path records hget

theorem wp_rotateMasterKey_ordered {faults : RotateFaults} {now : Nat} (hs : s.disk.Ordered) :
    wp (rotateMasterKey c faults fresh nonce nonceFor now) (.always fun t => t.disk.Ordered) s := by
  simp only [rotateMasterKey, wp_bind, wp_get]
  cases sealRecord c s.manager.wrapKey (nextMasterVersion s.manager.keyring) nonce fresh with
  | error e => exact hs
  | ok record =>
    simp only [wp_liftExcept_ok, writeKeyring, wp_bind, wp_modify, wp_effect, wp_get]
    refine ⟨fun _ => ?_, fun _ => hs, fun _ => hs⟩
    refine wp_mono (wp_rewrapFiles_ordered _ hs) (fun _ t ht => ?_) (fun _ _ ht => ht)
      fun _ ht => ht
    simp only [wp_bind, wp_modify, wp_effect, wp_pure]
    exact ⟨fun _ => ht, fun _ => ht, fun _ => ht⟩

theorem KeyRun.after_disk {α : Type} (r : KeyRun) (adds : α → List Acknowledged)
    (o : Outcome Store KeyError α) : (r.after adds o).disk = o.state.disk := by
  cases o <;> rfl

theorem wp_openManager_ordered {mint : Bool} (h : disk.Ordered) :
    wp (openManager c fault wrapKey mint fresh nonce) (.always Disk.Ordered) disk := by
  simp only [openManager, wp_bind, wp_get]
  cases disk.keyring with
  | some keyring =>
    simp only
    cases checkKeyring wrapKey keyring <;> exact h
  | none =>
    simp only [wp_ite]
    refine ⟨fun _ => ?_, fun _ => h⟩
    simp only [wp_bind]
    cases mintKeyring c wrapKey fresh nonce with
    | error e => exact h
    | ok keyring =>
      simp only [wp_liftExcept_ok, wp_bind, wp_effect]
      refine ⟨fun _ => ?_, fun _ => h, fun _ => h⟩
      cases checkKeyring wrapKey keyring <;> exact h

theorem KeyRun.ordered_step {r t : KeyRun} {call : KeyCall} (h : r.disk.Ordered)
    (ht : r.step c wrapKey call = some t) : t.disk.Ordered := by
  cases call with
  | reopen fault mint fresh nonce =>
    have hwp : wp (openManager c fault wrapKey mint fresh nonce) (.always Disk.Ordered) r.disk :=
      wp_openManager_ordered h
    have hopen := wp_always.mp hwp
    simp only [KeyRun.step, some.injEq] at ht
    subst ht
    cases ho : openManager c fault wrapKey mint fresh nonce r.disk <;>
      exact (ho ▸ hopen :)
  | getOrCreate fault fresh nonce workloadID =>
    obtain ⟨m, -, rfl⟩ := map_eq_some_iff.mp ht
    rw [after_disk]
    exact wp_always.mp (wp_getOrCreateWorkloadKey_ordered (s := ⟨r.disk, m⟩) h)
  | importKey fault nonce workloadID version key =>
    obtain ⟨m, -, rfl⟩ := map_eq_some_iff.mp ht
    rw [after_disk]
    exact wp_always.mp (wp_importWorkloadKey_ordered (s := ⟨r.disk, m⟩) h)
  | rotateKey fault fresh nonce workloadID =>
    obtain ⟨m, -, rfl⟩ := map_eq_some_iff.mp ht
    rw [after_disk]
    exact wp_always.mp (wp_rotateWorkloadKey_ordered (s := ⟨r.disk, m⟩) h)
  | rotateMaster faults fresh nonce nonceFor now =>
    obtain ⟨m, -, rfl⟩ := map_eq_some_iff.mp ht
    rw [after_disk]
    exact wp_always.mp (wp_rotateMasterKey_ordered (s := ⟨r.disk, m⟩) h)

theorem KeyRun.reachable_ordered {r : KeyRun} (h : Reachable (KeyRun.step c wrapKey) .init r) :
    r.disk.Ordered :=
  h.invariant (fun r => r.disk.Ordered) (fun _ _ _ hr ht => ordered_step hr ht)
    (by intro path records hget; cases hget)

theorem find?_last_of_once (hlast : records.getLast? = some record)
    (honce : TopOnce (records.map (·.keyVersion))) :
    records.find? (·.keyVersion == record.keyVersion) = some record := by
  obtain ⟨before, rfl⟩ := getLast?_eq_some_iff.mp hlast
  have hcount := honce.once record.keyVersion (by simp)
  rw [map_append, count_append, map_singleton, count_singleton_self] at hcount
  have hnone : before.find? (·.keyVersion == record.keyVersion) = none := by
    refine find?_eq_none.mpr fun r hr heq => ?_
    have hzero : record.keyVersion ∉ before.map (·.keyVersion) :=
      count_eq_zero.mp (by omega)
    exact hzero (List.mem_map.mpr ⟨r, hr, by simpa using heq⟩)
  rw [find?_append, hnone]
  simp

theorem load_of_loadOrEmpty (hload : loadOrEmpty c s.disk workloadID = .ok records)
    (hr : record ∈ records) : loadWorkloadRecords c s.disk workloadID = .ok records := by
  rcases loadOrEmpty_ok hload with ⟨-, rfl⟩ | ⟨hget, hall⟩
  · cases hr
  · simp only [loadWorkloadRecords, hget]
    rw [if_pos (by simpa using hall)]

theorem wp_getOrCreateWorkloadKey_reads (hs : s.disk.Ordered) :
    wp (getOrCreateWorkloadKey c fault fresh nonce workloadID)
      { ok := fun a t => workloadKey c t workloadID a.1 = .ok a.2
        error := fun _ _ => True
        crash := fun _ => True } s := by
  simp only [getOrCreateWorkloadKey, wp_bind, wp_get]
  refine wp_liftExcept (fun records hload => ?_) fun _ => trivial
  dsimp only
  cases hlast : records.getLast? with
  | none =>
    have hnil : records = [] := getLast?_eq_none_iff.mp hlast
    subst hnil
    simp only [storeWorkloadKey, wp_bind, wp_get]
    refine wp_liftExcept (fun record hwrap => ?_) fun _ => trivial
    obtain ⟨hformat, hw, hversion, -, hunwrap⟩ := wrapRecord_ok hwrap
    simp only [writeWorkloadFile, wp_effect]
    refine ⟨fun _ => ?_, fun _ => trivial, fun _ => trivial⟩
    show workloadKey c _ workloadID 1 = .ok fresh.val
    simp [workloadKey, loadWorkloadRecords, Disk.setWorkloadKeys, hformat, hw, hversion,
      hunwrap, bind, Except.bind]
  | some record =>
    simp only [wp_bind]
    cases hk : unwrap c s.manager record with
    | error e => trivial
    | ok key =>
      show workloadKey c s workloadID record.keyVersion = .ok key
      simp only [workloadKey, load_of_loadOrEmpty hload (mem_of_getLast? hlast), bind,
        Except.bind, find?_last_of_once hlast (hs.loaded hload)]
      exact hk

theorem lt_nextKeyVersion (hsorted : (records.map (·.keyVersion)).Pairwise (· ≤ ·))
    (hmax : ∀ r ∈ records, r.keyVersion ≠ 4294967295) (hr : record ∈ records) :
    record.keyVersion < nextKeyVersion records := by
  cases hlast : records.getLast? with
  | none =>
    rw [getLast?_eq_none_iff.mp hlast] at hr
    cases hr
  | some last =>
    have hle := le_getLast?_of_sorted hsorted (by rw [getLast?_map, hlast, map_some])
      (List.mem_map_of_mem hr)
    have hne := hmax last (mem_of_getLast? hlast)
    rw [ne_eq, ← UInt32.toNat_inj] at hne
    simp only [nextKeyVersion, hlast, UInt32.lt_iff_toNat_lt, UInt32.le_iff_toNat_le,
      UInt32.toNat_add, UInt32.reduceToNat] at *
    have := last.keyVersion.toNat_lt
    omega

theorem rotateWorkloadKey_ok {a : UInt32 × Bytes} {t : Store}
    (hload : loadOrEmpty c s.disk workloadID = .ok records)
    (h : rotateWorkloadKey c fault fresh nonce workloadID s = .ok a t) :
    ∃ record, wrapRecord c s.manager workloadID (nextKeyVersion records) nonce fresh.val =
        .ok record ∧ a = (nextKeyVersion records, fresh.val) ∧
      t = ⟨s.disk.setWorkloadKeys (workloadPath c workloadID)
        ((records ++ [record]).insertionSort (·.keyVersion ≤ ·.keyVersion)), s.manager⟩ := by
  simp only [rotateWorkloadKey, storeWorkloadKey, Program.get_bind_apply, hload,
    Program.bind_eq_ok, Program.liftExcept_eq_ok] at h
  obtain ⟨_, _, ⟨⟨⟩, rfl⟩, _, _, ⟨record, _, ⟨hwrap, rfl⟩, hwrite⟩, ⟨⟩⟩ := h
  cases fault with
  | none =>
    cases hwrite
    exact ⟨record, hwrap, rfl, rfl⟩
  | fail => cases hwrite
  | crash => cases hwrite

def importedStore : Store :=
  let keyring : KeyringFile := ⟨1, 1, [⟨1, (sampleKey 1).val, .raw, none⟩]⟩
  let wrapped : WrappedKeyRecord :=
    ⟨1, "a", 7, 1, sampleNonce, (sampleKey 1).val ++ (sampleKey 10).val⟩
  ⟨⟨some keyring, FileTable.empty.set "a.json" [wrapped]⟩, ⟨keyring, none⟩⟩

/-- In every reachable state, under any faults, the key that is handed out can be read back. -/
theorem created_key_read_back {c : Primitives} {wrapKey : Option Key} {r : KeyRun} {m : Manager}
    {fault : Fault} {fresh : Key} {nonce : Nonce} {workloadID : String} {version : UInt32}
    {key : Bytes} {t : Store} (h : Reachable (KeyRun.step c wrapKey) .init r)
    (hkey : getOrCreateWorkloadKey c fault fresh nonce workloadID ⟨r.disk, m⟩ =
      .ok (version, key) t) : workloadKey c t workloadID version = .ok key := by
  have hreads : (getOrCreateWorkloadKey c fault fresh nonce workloadID ⟨r.disk, m⟩).Meets _ :=
    wp_getOrCreateWorkloadKey_reads (KeyRun.reachable_ordered h)
  rw [hkey] at hreads
  exact hreads

theorem created_key_read_back_first : ∃ t,
    getOrCreateWorkloadKey tagPrimitives .none (sampleKey 3) sampleNonce "b" importedStore =
      .ok (1, (sampleKey 3).val) t ∧ workloadKey tagPrimitives t "b" 1 = .ok (sampleKey 3).val := by
  have hreach : Reachable (KeyRun.step tagPrimitives none) .init
      ⟨importedStore.disk, some importedStore.manager, [⟨"a", 7, (sampleKey 10).val⟩]⟩ :=
    ⟨[.reopen .none true (sampleKey 1) sampleNonce,
      .importKey .none sampleNonce "a" 7 (sampleKey 10).val], by decide⟩
  obtain ⟨t, h⟩ : ∃ t, getOrCreateWorkloadKey tagPrimitives .none (sampleKey 3) sampleNonce "b"
      importedStore = .ok (1, (sampleKey 3).val) t := ⟨_, rfl⟩
  exact ⟨t, h, created_key_read_back hreach h⟩

end Shiftgate.Securestore
