import Shiftgate.Library.Runs
import Shiftgate.Securestore.Keys

/-! What runs of the key manager keep recoverable. `DiskSound` says that the files alone recover
every acknowledged key, and `Live` that the manager in memory knows every master key the keyring
file knows. -/

namespace Shiftgate.Securestore

open Library List FileTable

variable {c : Primitives}

variable {workloadID path : String} {nonce : Nonce} {version : UInt32} {key k : Bytes}
  {record r : WrappedKeyRecord} {m : Manager} {keyring : KeyringFile}
  {records : List WrappedKeyRecord} {disk : Disk} {fault : Fault} {fresh : Key}
  {nonceFor : WrappedKeyRecord → Nonce} {now : Nat}

theorem decrypt_encrypt {dataKey plaintext ciphertext : Bytes} {purpose aad : String}
    (h : encrypt c dataKey workloadID purpose nonce plaintext aad = .ok ciphertext) :
    decrypt c dataKey workloadID purpose nonce ciphertext aad = .ok plaintext := by
  unfold encrypt decrypt at *
  cases hd : derive c dataKey workloadID purpose with
  | error e => simp [hd, bind, Except.bind] at h
  | ok key =>
    simp only [hd, bind, Except.bind, pure, Except.pure, Except.ok.injEq] at h ⊢
    subst h
    rw [c.gcmOpen_gcmSeal]

theorem openRecord_sealRecord {wrapKey : Option Key} {key : Key} {record : MasterKeyRecord}
    (h : sealRecord c wrapKey version nonce key = .ok record) :
    openRecord c wrapKey record = .ok key.val ∧ record.version = version ∧
      (wrapKey = none → record.protection = .raw) := by
  unfold sealRecord at h
  cases wrapKey with
  | none =>
    cases h
    simp [openRecord, key.property]
  | some wrap =>
    simp only [bind, Except.bind] at h
    split at h
    · cases h
    · rename_i ciphertext hc
      cases h
      exact ⟨decrypt_encrypt hc, rfl, by simp⟩

theorem wrapRecord_ok (h : wrapRecord c m workloadID version nonce key = .ok record) :
    record.formatVersion = 1 ∧ record.workloadID = workloadID ∧ record.keyVersion = version ∧
      record.wrappedBy = m.keyring.activeVersion ∧ unwrap c m record = .ok key := by
  unfold wrapRecord at h
  simp only [bind, Except.bind] at h
  split at h
  · cases h
  · rename_i master hmaster
    split at h
    · cases h
    · rename_i ciphertext hc
      cases h
      refine ⟨rfl, rfl, rfl, rfl, ?_⟩
      simp only [unwrap, hmaster, bind, Except.bind]
      exact decrypt_encrypt hc

def Agrees (c : Primitives) (m m' : Manager) : Prop :=
  ∀ v k, masterKey c m v = .ok k → masterKey c m' v = .ok k

variable {m' : Manager} {out : List WrappedKeyRecord}

theorem Agrees.unwrap (h : Agrees c m m') (hr : unwrap c m record = .ok k) :
    unwrap c m' record = .ok k := by
  unfold Securestore.unwrap at *
  cases hm : masterKey c m record.wrappedBy with
  | error e => simp [hm, bind, Except.bind] at hr
  | ok master =>
    rw [h _ _ hm]
    simpa [hm, bind, Except.bind] using hr

theorem agrees_append (m : Manager) (active : UInt32) (record : MasterKeyRecord) :
    Agrees c m { m with keyring := { m.keyring with
      activeVersion := active, keys := m.keyring.keys ++ [record] } } := by
  intro v k h
  unfold masterKey at *
  cases hf : m.keyring.keys.find? (·.version == v) with
  | none => simp [hf] at h
  | some found =>
    simp only [hf] at h
    simpa [find?_append, hf] using h

@[simp] theorem version_retireRecord (now : Nat) (version : UInt32) (record : MasterKeyRecord) :
    (retireRecord now version record).version = record.version := by
  unfold retireRecord
  split <;> rfl

@[simp] theorem protection_retireRecord (now : Nat) (version : UInt32) (record : MasterKeyRecord) :
    (retireRecord now version record).protection = record.protection := by
  unfold retireRecord
  split <;> rfl

theorem openRecord_retireRecord (wrapKey : Option Key) (now : Nat) (version : UInt32)
    (record : MasterKeyRecord) :
    openRecord c wrapKey (retireRecord now version record) = openRecord c wrapKey record := by
  unfold retireRecord
  split <;> rfl

theorem masterKey_retireOthers (m : Manager) (now : Nat) (version v : UInt32) :
    masterKey c { m with keyring := retireOthers now version m.keyring } v = masterKey c m v := by
  simp only [masterKey, retireOthers, find?_map, Function.comp_def, version_retireRecord]
  cases m.keyring.keys.find? (·.version == v) with
  | none => rfl
  | some record => exact openRecord_retireRecord m.wrapKey now version record

structure Acknowledged where
  workloadID : String
  version : UInt32
  key : Bytes
  deriving DecidableEq

structure FileSound (c : Primitives) (m : Manager) (path : String)
    (records : List WrappedKeyRecord) : Prop where
  owner : ∃ w, path = workloadPath c w ∧ ∀ r ∈ records, r.formatVersion = 1 ∧ r.workloadID = w
  unwraps : ∀ r ∈ records, ∃ k, unwrap c m r = .ok k
  versions : (records.map (·.keyVersion)).Nodup

structure DiskSound (c : Primitives) (wrapKey : Option Key) (acked : List Acknowledged)
    (keyring : KeyringFile) (disk : Disk) : Prop where
  written : disk.keyring = some keyring
  opens : checkKeyring wrapKey keyring = .ok { keyring, wrapKey }
  masters : ∀ r ∈ keyring.keys, ∃ k, openRecord c wrapKey r = .ok k
  files : ∀ path records, disk.workloadKeys.get path = some records →
    FileSound c { keyring, wrapKey } path records
  recovers : ∀ a ∈ acked, ∃ records,
    disk.workloadKeys.get (workloadPath c a.workloadID) = some records ∧
      ∃ r ∈ records, r.workloadID = a.workloadID ∧ r.keyVersion = a.version ∧
        unwrap c { keyring, wrapKey } r = .ok a.key

structure Live (c : Primitives) (wrapKey : Option Key) (keyring : KeyringFile) (m : Manager) :
    Prop where
  wrap : m.wrapKey = wrapKey
  opens : checkKeyring wrapKey m.keyring = .ok { keyring := m.keyring, wrapKey }
  masters : ∀ r ∈ m.keyring.keys, ∃ k, openRecord c wrapKey r = .ok k
  agrees : Agrees c { keyring, wrapKey } m

theorem checkKeyring_ok_iff {wrapKey : Option Key} :
    checkKeyring wrapKey keyring = .ok { keyring, wrapKey } ↔
      keyring.formatVersion = 1 ∧ keyring.keys ≠ [] ∧
        (wrapKey = none → ∀ r ∈ keyring.keys, r.protection = .raw) := by
  unfold checkKeyring
  split
  · rename_i h
    simp only [reduceCtorEq, false_iff, not_and]
    tauto
  · rename_i h
    split
    · rename_i h'
      simp only [any_eq_true, decide_eq_true_eq] at h'
      obtain ⟨hw, r, hr, hp⟩ := h'
      simp only [reduceCtorEq, false_iff, not_and]
      intro _ _ hall
      exact hp (hall hw r hr)
    · rename_i h'
      simp only [any_eq_true, decide_eq_true_eq, not_and, not_exists] at h'
      simp only [true_iff]
      exact ⟨by tauto, by tauto, fun hw r hr => by simpa using h' hw r hr⟩

theorem FileSound.agrees (h : Agrees c m m') (hf : FileSound c m path records) :
    FileSound c m' path records := by
  refine ⟨hf.owner, fun r hr => ?_, hf.versions⟩
  obtain ⟨k, hk⟩ := hf.unwraps r hr
  exact ⟨k, h.unwrap hk⟩

theorem DiskSound.writeKeyring {wrapKey : Option Key} {acked : List Acknowledged}
    (hd : DiskSound c wrapKey acked keyring disk) (hm : Live c wrapKey keyring m) :
    DiskSound c wrapKey acked m.keyring (disk.setKeyring m.keyring) := by
  have hagrees : Agrees c { keyring, wrapKey } { keyring := m.keyring, wrapKey } := by
    obtain ⟨k, w⟩ := m
    have hw : w = wrapKey := hm.wrap
    subst hw
    exact hm.agrees
  refine ⟨rfl, hm.opens, hm.masters, ?_, ?_⟩
  · intro path records hget
    exact (hd.files path records hget).agrees hagrees
  · intro a ha
    obtain ⟨records, hget, r, hr, hw, hv, hk⟩ := hd.recovers a ha
    exact ⟨records, hget, r, hr, hw, hv, hagrees.unwrap hk⟩

theorem find?_version_of_nodup (hn : (records.map (·.keyVersion)).Nodup) (hr : r ∈ records) :
    records.find? (·.keyVersion == r.keyVersion) = some r := by
  induction records with
  | nil => cases hr
  | cons first rest ih =>
    rw [map_cons, nodup_cons] at hn
    rcases mem_cons.mp hr with rfl | hrest
    · simp
    · have hne : first.keyVersion ≠ r.keyVersion := by
        intro heq
        exact hn.1 (heq ▸ mem_map_of_mem hrest)
      rw [find?_cons_of_neg (by simpa using hne)]
      exact ih hn.2 hrest

theorem FileSound.load (hget : disk.workloadKeys.get (workloadPath c workloadID) = some records)
    (hf : FileSound c m (workloadPath c workloadID) records) (hr : r ∈ records)
    (hw : r.workloadID = workloadID) : loadWorkloadRecords c disk workloadID = .ok records := by
  obtain ⟨w, -, hall⟩ := hf.owner
  have hwEq : w = workloadID := (hall r hr).2.symm.trans hw
  subst hwEq
  unfold loadWorkloadRecords
  simp only [hget]
  rw [if_pos]
  simpa using hall

theorem DiskSound.workloadKey {wrapKey : Option Key} {acked : List Acknowledged}
    (hd : DiskSound c wrapKey acked keyring disk) (hm : Agrees c { keyring, wrapKey } m)
    {a : Acknowledged} (ha : a ∈ acked) :
    workloadKey c { disk, manager := m } a.workloadID a.version = .ok a.key := by
  obtain ⟨records, hget, r, hr, hw, hv, hk⟩ := hd.recovers a ha
  have hf := hd.files _ _ hget
  unfold Securestore.workloadKey
  simp only [hf.load hget hr hw, bind, Except.bind]
  rw [← hv, find?_version_of_nodup hf.versions hr]
  exact hm.unwrap hk

theorem loadOrEmpty_ok (h : loadOrEmpty c disk workloadID = .ok records) :
    (disk.workloadKeys.get (workloadPath c workloadID) = none ∧ records = []) ∨
      (disk.workloadKeys.get (workloadPath c workloadID) = some records ∧
        ∀ r ∈ records, r.formatVersion = 1 ∧ r.workloadID = workloadID) := by
  unfold loadOrEmpty loadWorkloadRecords at h
  cases hget : disk.workloadKeys.get (workloadPath c workloadID) with
  | none =>
    simp only [hget, Except.ok.injEq] at h
    exact .inl ⟨rfl, h.symm⟩
  | some found =>
    simp only [hget] at h
    by_cases hall : found.all (fun r => r.formatVersion == 1 && r.workloadID == workloadID)
    · simp only [hall, if_true, Except.ok.injEq] at h
      subst h
      exact .inr ⟨rfl, by simpa using hall⟩
    · simp [hall] at h

theorem unwrap_wrapRecord_persisted {wrapKey : Option Key} {acked : List Acknowledged}
    (hd : DiskSound c wrapKey acked keyring disk) (hm : Live c wrapKey keyring m)
    (persisted : ∃ r ∈ keyring.keys, r.version = m.keyring.activeVersion)
    (h : wrapRecord c m workloadID version nonce key = .ok record) :
    unwrap c { keyring, wrapKey } record = .ok key := by
  obtain ⟨-, -, -, hby, hunwrap⟩ := wrapRecord_ok h
  obtain ⟨r, hr, hv⟩ := persisted
  cases hf : keyring.keys.find? (·.version == m.keyring.activeVersion) with
  | none => exact absurd hv (by simpa using find?_eq_none.mp hf r hr)
  | some found =>
    obtain ⟨master, hmaster⟩ := hd.masters found (mem_of_find?_eq_some hf)
    have hfile : masterKey c { keyring, wrapKey } m.keyring.activeVersion = .ok master := by
      simp only [masterKey, hf, hmaster]
    have hlive : masterKey c m m.keyring.activeVersion = .ok master := hm.agrees _ _ hfile
    simp only [unwrap, hby, hlive, hfile] at hunwrap ⊢
    exact hunwrap

/-- A new record, wrapped under a key of the file and of a fresh version, keeps the files sound and
its key recoverable. -/
theorem DiskSound.store {wrapKey : Option Key} {acked : List Acknowledged}
    (hd : DiskSound c wrapKey acked keyring disk)
    (hload : loadOrEmpty c disk workloadID = .ok records) (hformat : record.formatVersion = 1)
    (hw : record.workloadID = workloadID) (hfresh : record.keyVersion ∉ records.map (·.keyVersion))
    (hunwrap : unwrap c { keyring, wrapKey } record = .ok key) :
    DiskSound c wrapKey (⟨workloadID, record.keyVersion, key⟩ :: acked) keyring
      (disk.setWorkloadKeys (workloadPath c workloadID)
        ((records ++ [record]).insertionSort (·.keyVersion ≤ ·.keyVersion))) := by
  set sorted := (records ++ [record]).insertionSort (·.keyVersion ≤ ·.keyVersion) with hsorted
  have hperm : sorted.Perm (records ++ [record]) := perm_insertionSort _ _
  have hmem : ∀ r, r ∈ sorted ↔ r ∈ records ∨ r = record := by
    intro r
    rw [hperm.mem_iff, mem_append, mem_singleton]
  have hold : ∀ r ∈ records, r.formatVersion = 1 ∧ r.workloadID = workloadID := by
    rcases loadOrEmpty_ok hload with ⟨-, rfl⟩ | ⟨-, hall⟩
    · simp
    · exact hall
  have hsound : (∀ r ∈ records, ∃ k, unwrap c { keyring, wrapKey } r = .ok k) ∧
      (records.map (·.keyVersion)).Nodup := by
    rcases loadOrEmpty_ok hload with ⟨-, rfl⟩ | ⟨hget, -⟩
    · simp
    · exact ⟨(hd.files _ _ hget).unwraps, (hd.files _ _ hget).versions⟩
  refine ⟨hd.written, hd.opens, hd.masters, ?_, ?_⟩
  · intro path found hget
    rw [Disk.setWorkloadKeys, get_set] at hget
    split at hget
    · rename_i hpath
      cases hget
      refine ⟨⟨workloadID, hpath, ?_⟩, ?_, ?_⟩
      · intro r hr
        rcases (hmem r).mp hr with hr | rfl
        · exact hold r hr
        · exact ⟨hformat, hw⟩
      · intro r hr
        rcases (hmem r).mp hr with hr | rfl
        · exact hsound.1 r hr
        · exact ⟨key, hunwrap⟩
      · rw [(hperm.map _).nodup_iff, map_append, map_singleton, nodup_append_comm,
          singleton_append, nodup_cons]
        exact ⟨hfresh, hsound.2⟩
    · exact hd.files path found hget
  · intro a ha
    rcases mem_cons.mp ha with rfl | ha
    · exact ⟨sorted, get_set_same _ _ _, record, (hmem record).mpr (.inr rfl), hw, rfl,
        hunwrap⟩
    · obtain ⟨found, hget, r, hr, hrw, hrv, hrk⟩ := hd.recovers a ha
      by_cases hpath : workloadPath c a.workloadID = workloadPath c workloadID
      · -- The acknowledged key is in the file that is replaced, so among the records loaded.
        have hrecords : found = records := by
          rcases loadOrEmpty_ok hload with ⟨hnone, -⟩ | ⟨hsome, -⟩
          · rw [hpath, hnone] at hget
            cases hget
          · rw [hpath, hsome] at hget
            exact (Option.some.inj hget).symm
        subst hrecords
        refine ⟨sorted, ?_, r, (hmem r).mpr (.inl hr), hrw, hrv, hrk⟩
        rw [Disk.setWorkloadKeys, hpath, get_set_same]
      · refine ⟨found, ?_, r, hr, hrw, hrv, hrk⟩
        rw [Disk.setWorkloadKeys, get_set_other _ _ hpath]
        exact hget

def StoreSound (c : Primitives) (wrapKey : Option Key) (acked : List Acknowledged) (s : Store) :
    Prop :=
  ∃ keyring, DiskSound c wrapKey acked keyring s.disk ∧ Live c wrapKey keyring s.manager

def keeps {α : Type} (c : Primitives) (wrapKey : Option Key) (acked : List Acknowledged)
    (adds : α → List Acknowledged) : Post Store KeyError α where
  ok := fun a t => StoreSound c wrapKey (adds a ++ acked) t
  error := fun _ t => StoreSound c wrapKey acked t
  crash := fun t => StoreSound c wrapKey acked t

def ActivePersisted (s : Store) : Prop :=
  ∀ keyring ∈ s.disk.keyring, ∃ r ∈ keyring.keys, r.version = s.manager.keyring.activeVersion

variable {wrapKey : Option Key} {acked : List Acknowledged} {s : Store}

theorem wp_storeWorkloadKey (hs : StoreSound c wrapKey acked s)
    (hload : loadOrEmpty c s.disk workloadID = .ok records)
    (stores : fault = .none → ActivePersisted s ∧ version ∉ records.map (·.keyVersion)) :
    wp (storeWorkloadKey c fault workloadID version nonce key records)
      (keeps c wrapKey acked fun _ => [⟨workloadID, version, key⟩]) s := by
  obtain ⟨keyring, hd, hm⟩ := hs
  simp only [storeWorkloadKey, wp_bind, wp_get, keeps]
  refine wp_liftExcept (fun record hwrap => ?_) fun _ => ⟨keyring, hd, hm⟩
  obtain ⟨hformat, hw, hversion, -, -⟩ := wrapRecord_ok hwrap
  simp only [writeWorkloadFile, wp_effect]
  refine ⟨fun hfault => ?_, fun _ => ⟨keyring, hd, hm⟩, fun _ => ⟨keyring, hd, hm⟩⟩
  obtain ⟨persisted, hfresh⟩ := stores hfault
  have hunwrap := unwrap_wrapRecord_persisted hd hm (persisted keyring hd.written) hwrap
  subst hversion
  exact ⟨keyring, hd.store hload hformat hw hfresh hunwrap, hm⟩

theorem mem_loaded_recovers (hd : DiskSound c wrapKey acked keyring disk)
    (hm : Live c wrapKey keyring m) (hload : loadOrEmpty c disk workloadID = .ok records)
    (hr : r ∈ records) (hk : unwrap c m r = .ok k) :
    DiskSound c wrapKey (⟨workloadID, r.keyVersion, k⟩ :: acked) keyring disk := by
  rcases loadOrEmpty_ok hload with ⟨-, rfl⟩ | ⟨hget, hall⟩
  · cases hr
  · refine { hd with recovers := fun a ha => ?_ }
    rcases mem_cons.mp ha with rfl | ha
    · obtain ⟨k', hk'⟩ := (hd.files _ _ hget).unwraps r hr
      have hsame : k' = k := Except.ok.inj ((hm.agrees.unwrap hk').symm.trans hk)
      exact ⟨records, hget, r, hr, (hall r hr).2, rfl, hsame ▸ hk'⟩
    · exact hd.recovers a ha

section

variable (hs : StoreSound c wrapKey acked s)

include hs

theorem wp_getOrCreateWorkloadKey
    (persisted : fault = .none → loadOrEmpty c s.disk workloadID = .ok [] → ActivePersisted s) :
    wp (getOrCreateWorkloadKey c fault fresh nonce workloadID)
      (keeps c wrapKey acked fun a => [⟨workloadID, a.1, a.2⟩]) s := by
  simp only [getOrCreateWorkloadKey, wp_bind, wp_get]
  refine wp_liftExcept (fun records hload => ?_) fun _ => hs
  dsimp only
  cases hlast : records.getLast? with
  | none =>
    have hnil : records = [] := getLast?_eq_none_iff.mp hlast
    subst hnil
    simp only [wp_bind]
    exact wp_storeWorkloadKey hs hload fun hf => ⟨persisted hf hload, by simp⟩
  | some record =>
    obtain ⟨keyring, hd, hm⟩ := hs
    simp only [wp_bind]
    cases hk : unwrap c s.manager record with
    | error e => exact ⟨keyring, hd, hm⟩
    | ok key =>
      exact ⟨keyring, mem_loaded_recovers hd hm hload (mem_of_getLast? hlast) hk, hm⟩

theorem wp_importWorkloadKey
    (persisted : fault = .none → ∀ records, loadOrEmpty c s.disk workloadID = .ok records →
      version ∉ records.map (·.keyVersion) → ActivePersisted s) :
    wp (importWorkloadKey c fault nonce workloadID version key)
      (keeps c wrapKey acked fun _ => [⟨workloadID, version, key⟩]) s := by
  rw [importWorkloadKey, wp_ite]
  refine ⟨fun _ => hs, fun _ => ?_⟩
  simp only [wp_bind, wp_get]
  refine wp_liftExcept (fun records hload => ?_) fun _ => hs
  dsimp only
  cases hfind : records.find? (·.keyVersion == version) with
  | none =>
    have hfresh : version ∉ records.map (·.keyVersion) := by
      simpa [find?_eq_none] using hfind
    exact wp_storeWorkloadKey hs hload fun hf => ⟨persisted hf records hload hfresh, hfresh⟩
  | some record =>
    obtain ⟨keyring, hd, hm⟩ := hs
    have hversion : record.keyVersion = version := by
      simpa using find?_some hfind
    simp only [wp_bind]
    refine wp_liftExcept (fun existing hk => ?_) fun _ => ⟨keyring, hd, hm⟩
    simp only [wp_ite]
    refine ⟨fun _ => ⟨keyring, hd, hm⟩, fun heq => ?_⟩
    have hkey : existing = key := not_not.mp heq
    subst hkey hversion
    exact ⟨keyring, mem_loaded_recovers hd hm hload (mem_of_find?_eq_some hfind) hk, hm⟩

theorem wp_rotateWorkloadKey (stores : fault = .none → ActivePersisted s ∧
      ∀ records, loadOrEmpty c s.disk workloadID = .ok records →
        nextKeyVersion records ∉ records.map (·.keyVersion)) :
    wp (rotateWorkloadKey c fault fresh nonce workloadID)
      (keeps c wrapKey acked fun a => [⟨workloadID, a.1, a.2⟩]) s := by
  simp only [rotateWorkloadKey, wp_bind, wp_get]
  refine wp_liftExcept (fun records hload => ?_) fun _ => hs
  simp only [wp_bind]
  exact wp_storeWorkloadKey hs hload fun hf => ⟨(stores hf).1, (stores hf).2 records hload⟩

end

structure Rewrapped (c : Primitives) (m : Manager) (old new : WrappedKeyRecord) : Prop where
  formatVersion : new.formatVersion = old.formatVersion
  workloadID : new.workloadID = old.workloadID
  keyVersion : new.keyVersion = old.keyVersion
  key : ∃ k, unwrap c m old = .ok k ∧ unwrap c m new = .ok k

theorem rewrapRecords_ok (h : rewrapRecords c m nonceFor records = .ok out) :
    List.Forall₂ (Rewrapped c m) records out := by
  induction records generalizing out with
  | nil =>
    cases h
    exact .nil
  | cons record rest ih =>
    simp only [rewrapRecords, bind, Except.bind] at h
    cases hk : unwrap c m record with
    | error e => simp [hk] at h
    | ok key =>
      cases hw : wrapRecord c m record.workloadID record.keyVersion (nonceFor record) key with
      | error e => simp [hk, hw] at h
      | ok fresh =>
        cases hrest : rewrapRecords c m nonceFor rest with
        | error e => simp [hk, hw, hrest] at h
        | ok others =>
          simp only [hk, hw, hrest, pure, Except.pure, Except.ok.injEq] at h
          subst h
          obtain ⟨-, hid, hversion, -, hunwrap⟩ := wrapRecord_ok hw
          refine .cons ⟨rfl, rfl, rfl, key, hk, ?_⟩ (ih hrest)
          rw [← hunwrap]
          simp only [unwrap, hid, hversion]

section

variable (h : List.Forall₂ (Rewrapped c m) records out)

include h

theorem forall₂_map_keyVersion : out.map (·.keyVersion) = records.map (·.keyVersion) := by
  induction h with
  | nil => rfl
  | cons hr _ ih => rw [map_cons, map_cons, hr.keyVersion, ih]

theorem exists_old_of_mem {new : WrappedKeyRecord} (hn : new ∈ out) :
    ∃ old ∈ records, Rewrapped c m old new := by
  induction h with
  | nil => cases hn
  | cons hr _ ih =>
    rcases mem_cons.mp hn with rfl | hn
    · exact ⟨_, mem_cons_self, hr⟩
    · obtain ⟨old, ho, hr⟩ := ih hn
      exact ⟨old, mem_cons_of_mem _ ho, hr⟩

theorem exists_new_of_mem {old : WrappedKeyRecord} (ho : old ∈ records) :
    ∃ new ∈ out, Rewrapped c m old new := by
  induction h with
  | nil => cases ho
  | cons hr _ ih =>
    rcases mem_cons.mp ho with rfl | ho
    · exact ⟨_, mem_cons_self, hr⟩
    · obtain ⟨new, hn, hr⟩ := ih ho
      exact ⟨new, mem_cons_of_mem _ hn, hr⟩

end

theorem DiskSound.rewrap (hd : DiskSound c m.wrapKey acked m.keyring disk)
    (hget : disk.workloadKeys.get path = some records)
    (h : List.Forall₂ (Rewrapped c m) records out) :
    DiskSound c m.wrapKey acked m.keyring (disk.setWorkloadKeys path out) := by
  have hf := hd.files path records hget
  refine ⟨hd.written, hd.opens, hd.masters, ?_, ?_⟩
  · intro other found hother
    rw [Disk.setWorkloadKeys, get_set] at hother
    split at hother
    · rename_i hpath
      cases hother
      subst hpath
      obtain ⟨w, hw, hall⟩ := hf.owner
      refine ⟨⟨w, hw, fun r hr => ?_⟩, fun r hr => ?_, ?_⟩
      · obtain ⟨old, ho, hr⟩ := exists_old_of_mem h hr
        exact ⟨hr.formatVersion.trans (hall old ho).1, hr.workloadID.trans (hall old ho).2⟩
      · obtain ⟨old, ho, hr⟩ := exists_old_of_mem h hr
        obtain ⟨k, -, hk⟩ := hr.key
        exact ⟨k, hk⟩
      · rw [forall₂_map_keyVersion h]
        exact hf.versions
    · exact hd.files other found hother
  · intro a ha
    obtain ⟨found, hfound, r, hr, hrw, hrv, hrk⟩ := hd.recovers a ha
    by_cases hpath : workloadPath c a.workloadID = path
    · subst hpath
      rw [hget] at hfound
      cases hfound
      obtain ⟨new, hn, hnew⟩ := exists_new_of_mem h hr
      obtain ⟨k, hold, hk⟩ := hnew.key
      have hkey : k = a.key := Except.ok.inj (hold.symm.trans hrk)
      subst hkey
      exact ⟨out, by rw [Disk.setWorkloadKeys, get_set_same], new, hn,
        hnew.workloadID.trans hrw, hnew.keyVersion.trans hrv, hk⟩
    · refine ⟨found, ?_, r, hr, hrw, hrv, hrk⟩
      rw [Disk.setWorkloadKeys, get_set_other _ _ hpath]
      exact hfound

/-- The loop over the workload files keeps them sound at every step, so an error or a crash between
two files loses nothing. -/
theorem wp_rewrapFiles {faults : String → Fault} (paths : List String) (hm : s.manager = m)
    (hd : DiskSound c m.wrapKey acked m.keyring s.disk) :
    wp (rewrapFiles c faults nonceFor paths)
      { ok := fun _ t => t.manager = m ∧ DiskSound c m.wrapKey acked m.keyring t.disk
        error := fun _ t => t.manager = m ∧ DiskSound c m.wrapKey acked m.keyring t.disk
        crash := fun t => t.manager = m ∧ DiskSound c m.wrapKey acked m.keyring t.disk } s := by
  induction paths generalizing s with
  | nil => exact ⟨hm, hd⟩
  | cons path rest ih =>
    simp only [rewrapFiles, rewrapWorkloadFile, wp_bind, wp_get]
    cases hget : s.disk.workloadKeys.get path with
    | none => exact ⟨hm, hd⟩
    | some records =>
      simp only [wp_bind]
      subst hm
      refine wp_liftExcept (fun out hout => ?_) fun _ => ⟨rfl, hd⟩
      simp only [writeWorkloadFile, wp_effect]
      exact ⟨fun _ => ih rfl (hd.rewrap hget (rewrapRecords_ok hout)), fun _ => ⟨trivial, hd⟩,
        fun _ => ⟨trivial, hd⟩⟩

theorem live_self (hd : DiskSound c m.wrapKey acked m.keyring disk) :
    Live c m.wrapKey m.keyring m :=
  ⟨rfl, hd.opens, hd.masters, fun _ _ h => h⟩

theorem Live.append {record : MasterKeyRecord} (hm : Live c wrapKey keyring m)
    (hr : sealRecord c m.wrapKey version nonce fresh = .ok record) :
    Live c wrapKey keyring { m with keyring := { m.keyring with
      activeVersion := version, keys := m.keyring.keys ++ [record] } } := by
  rw [hm.wrap] at hr
  obtain ⟨hopen, -, hraw⟩ := openRecord_sealRecord hr
  obtain ⟨hformat, -, hall⟩ := checkKeyring_ok_iff.mp hm.opens
  refine ⟨hm.wrap, checkKeyring_ok_iff.mpr ⟨hformat, by simp, ?_⟩, ?_, ?_⟩
  · intro hw r hmem
    rcases mem_append.mp hmem with hmem | hmem
    · exact hall hw r hmem
    · rw [mem_singleton.mp hmem]
      exact hraw hw
  · intro r hmem
    rcases mem_append.mp hmem with hmem | hmem
    · exact hm.masters r hmem
    · rw [mem_singleton.mp hmem]
      exact ⟨fresh.val, hopen⟩
  · intro v k hk
    exact agrees_append m version record v k (hm.agrees v k hk)

theorem Live.retireOthers (hm : Live c wrapKey keyring m) :
    Live c wrapKey keyring { m with keyring := retireOthers now version m.keyring } := by
  obtain ⟨hformat, hne, hall⟩ := checkKeyring_ok_iff.mp hm.opens
  refine ⟨hm.wrap, checkKeyring_ok_iff.mpr ⟨hformat, ?_, ?_⟩, ?_, ?_⟩
  · simpa [Securestore.retireOthers] using hne
  · intro hw r hmem
    obtain ⟨old, ho, rfl⟩ := mem_map.mp hmem
    rw [protection_retireRecord]
    exact hall hw old ho
  · intro r hmem
    obtain ⟨old, ho, rfl⟩ := mem_map.mp hmem
    rw [openRecord_retireRecord]
    exact hm.masters old ho
  · intro v k hk
    rw [masterKey_retireOthers]
    exact hm.agrees v k hk

theorem wp_rotateMasterKey {faults : RotateFaults} (hs : StoreSound c wrapKey acked s) :
    wp (rotateMasterKey c faults fresh nonce nonceFor now)
      (keeps c wrapKey acked fun _ => []) s := by
  obtain ⟨keyring, hd, hm⟩ := hs
  simp only [rotateMasterKey, wp_bind, wp_get]
  refine wp_liftExcept (fun record hr => ?_) fun _ => ⟨keyring, hd, hm⟩
  have happended := hm.append hr
  set m := { s.manager with keyring := { s.manager.keyring with
    activeVersion := nextMasterVersion s.manager.keyring,
    keys := s.manager.keyring.keys ++ [record] } } with hmdef
  simp only [writeKeyring, wp_bind, wp_modify, wp_effect]
  refine ⟨fun _ => ?_, fun _ => ⟨keyring, hd, happended⟩, fun _ => ⟨keyring, hd, happended⟩⟩
  -- From here on the keyring file is the manager's keyring.
  have hwrap : m.wrapKey = wrapKey := happended.wrap
  have hwritten := hd.writeKeyring happended
  rw [← hwrap] at hwritten ⊢
  simp only [wp_get, wp_bind]
  refine wp_mono (wp_rewrapFiles (m := m) (s := ⟨s.disk.setKeyring m.keyring, m⟩) _ rfl hwritten)
    ?_ ?_ ?_
  · rintro _ t ⟨ht, hdt⟩
    set retired : Manager :=
      { m with keyring := retireOthers now (nextMasterVersion s.manager.keyring) m.keyring }
    have hretired : Live c m.wrapKey m.keyring retired := (live_self hdt).retireOthers
    have hfinal : DiskSound c retired.wrapKey acked retired.keyring
        (t.disk.setKeyring retired.keyring) := hdt.writeKeyring hretired
    simp only [wp_bind, wp_modify, wp_effect, ht]
    exact ⟨fun _ => ⟨_, hfinal, live_self hfinal⟩, fun _ => ⟨_, hdt, hretired⟩,
      fun _ => ⟨_, hdt, hretired⟩⟩
  · rintro _ t ⟨ht, hdt⟩
    exact ⟨m.keyring, hdt, by rw [ht]; exact live_self hdt⟩
  · rintro t ⟨ht, hdt⟩
    exact ⟨m.keyring, hdt, by rw [ht]; exact live_self hdt⟩

end Shiftgate.Securestore
