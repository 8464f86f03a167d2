import Shiftgate.Securestore.KeyRecovery

/-! Runs of the key manager: calls with the outcome of their writes, and reopenings. An acknowledged
key is lost when it is stored under a master key missing from the keyring file, or under a version
already taken. -/

namespace Shiftgate.Securestore

open Library Option

structure KeyRun where
  disk : Disk
  manager : Option Manager
  acked : List Acknowledged
  deriving DecidableEq

def KeyRun.init : KeyRun := { disk := ⟨none, .empty⟩, manager := none, acked := [] }

inductive KeyCall where
  | reopen (fault : Fault) (mint : Bool) (fresh : Key) (nonce : Nonce)
  | getOrCreate (fault : Fault) (fresh : Key) (nonce : Nonce) (workloadID : String)
  | importKey (fault : Fault) (nonce : Nonce) (workloadID : String) (version : UInt32)
      (key : Bytes)
  | rotateKey (fault : Fault) (fresh : Key) (nonce : Nonce) (workloadID : String)
  | rotateMaster (faults : RotateFaults) (fresh : Key) (nonce : Nonce)
      (nonceFor : WrappedKeyRecord → Nonce) (now : Nat)

def KeyRun.after {α : Type} (r : KeyRun) (adds : α → List Acknowledged) :
    Outcome Store KeyError α → KeyRun
  | .ok a s => { disk := s.disk, manager := some s.manager, acked := adds a ++ r.acked }
  | .error _ s => { r with disk := s.disk, manager := some s.manager }
  | .crash s => { r with disk := s.disk, manager := none }

def KeyRun.step (c : Primitives) (wrapKey : Option Key) (r : KeyRun) (call : KeyCall) :
    Option KeyRun :=
  match call with
  | .reopen fault mint fresh nonce =>
    some (match openManager c fault wrapKey mint fresh nonce r.disk with
      | .ok m disk => { r with disk, manager := some m }
      | .error _ disk => { r with disk, manager := none }
      | .crash disk => { r with disk, manager := none })
  | .getOrCreate fault fresh nonce workloadID => r.manager.map fun manager =>
    r.after (fun a => [⟨workloadID, a.1, a.2⟩])
      (getOrCreateWorkloadKey c fault fresh nonce workloadID ⟨r.disk, manager⟩)
  | .importKey fault nonce workloadID version key => r.manager.map fun manager =>
    r.after (fun _ => [⟨workloadID, version, key⟩])
      (importWorkloadKey c fault nonce workloadID version key ⟨r.disk, manager⟩)
  | .rotateKey fault fresh nonce workloadID => r.manager.map fun manager =>
    r.after (fun a => [⟨workloadID, a.1, a.2⟩])
      (rotateWorkloadKey c fault fresh nonce workloadID ⟨r.disk, manager⟩)
  | .rotateMaster faults fresh nonce nonceFor now => r.manager.map fun manager =>
    r.after (fun _ => [])
      (rotateMasterKey c faults fresh nonce nonceFor now ⟨r.disk, manager⟩)

def KeyRun.Recovers (c : Primitives) (wrapKey : Option Key) (r : KeyRun) (a : Acknowledged) :
    Prop :=
  (∀ m, r.manager = some m → workloadKey c ⟨r.disk, m⟩ a.workloadID a.version = .ok a.key) ∧
    ∀ fault mint fresh nonce, ∃ m,
      openManager c fault wrapKey mint fresh nonce r.disk = .ok m r.disk ∧
        workloadKey c ⟨r.disk, m⟩ a.workloadID a.version = .ok a.key

/-- The call stores no data key, or stores it under a master key of the keyring file and under a
version of its own. -/
def StoresSafely (c : Primitives) (r : KeyRun) : KeyCall → Prop
  | .reopen .. => True
  | .getOrCreate fault _ _ workloadID => ∀ m ∈ r.manager,
    fault = .none → loadOrEmpty c r.disk workloadID = .ok [] → ActivePersisted ⟨r.disk, m⟩
  | .importKey fault _ workloadID version _ => ∀ m ∈ r.manager,
    fault = .none → ∀ records ∈ (loadOrEmpty c r.disk workloadID).toOption,
      version ∉ records.map (·.keyVersion) → ActivePersisted ⟨r.disk, m⟩
  | .rotateKey fault _ _ workloadID => ∀ m ∈ r.manager,
    fault = .none → ActivePersisted ⟨r.disk, m⟩ ∧
      ∀ records ∈ (loadOrEmpty c r.disk workloadID).toOption,
        nextKeyVersion records ∉ records.map (·.keyVersion)
  | .rotateMaster .. => True

instance (s : Store) : Decidable (ActivePersisted s) :=
  inferInstanceAs (Decidable (∀ keyring ∈ s.disk.keyring,
    ∃ r ∈ keyring.keys, r.version = s.manager.keyring.activeVersion))

instance (c : Primitives) (r : KeyRun) : ∀ call, Decidable (StoresSafely c r call)
  | .reopen .. => isTrue trivial
  | .getOrCreate .. => inferInstanceAs (Decidable (∀ m ∈ r.manager, _ → _ → _))
  | .importKey .. => inferInstanceAs (Decidable (∀ m ∈ r.manager, _ → ∀ records ∈ _, _ → _))
  | .rotateKey .. => inferInstanceAs (Decidable (∀ m ∈ r.manager, _ → _ ∧ ∀ records ∈ _, _))
  | .rotateMaster .. => isTrue trivial

def KeyRun.Sound (c : Primitives) (wrapKey : Option Key) (r : KeyRun) : Prop :=
  (r.disk = ⟨none, .empty⟩ ∧ r.manager = none ∧ r.acked = []) ∨
    ∃ keyring, DiskSound c wrapKey r.acked keyring r.disk ∧
      ∀ m, r.manager = some m → Live c wrapKey keyring m

variable {c : Primitives} {wrapKey : Option Key} {r : KeyRun}

theorem KeyRun.Sound.store {m : Manager} (h : r.Sound c wrapKey) (hm : r.manager = some m) :
    StoreSound c wrapKey r.acked ⟨r.disk, m⟩ := by
  rcases h with ⟨-, hnone, -⟩ | ⟨keyring, hd, hlive⟩
  · rw [hnone] at hm
    cases hm
  · exact ⟨keyring, hd, hlive m hm⟩

variable {α : Type} {keyring : KeyringFile} {fresh : Key} {nonce : Nonce} {t : KeyRun}

theorem KeyRun.Sound.after {adds : α → List Acknowledged} {o : Outcome Store KeyError α}
    (h : o.Meets (keeps c wrapKey r.acked adds)) : (r.after adds o).Sound c wrapKey := by
  cases o with
  | ok a s | error e s =>
    obtain ⟨keyring, hd, hm⟩ := h
    refine .inr ⟨keyring, hd, ?_⟩
    rintro m ⟨⟩
    exact hm
  | crash s =>
    obtain ⟨keyring, hd, -⟩ := h
    exact .inr ⟨keyring, hd, by simp [KeyRun.after]⟩

theorem openManager_sound {acked : List Acknowledged} {disk : Disk}
    (hd : DiskSound c wrapKey acked keyring disk) (fault : Fault) (mint : Bool) (fresh : Key)
    (nonce : Nonce) :
    openManager c fault wrapKey mint fresh nonce disk = .ok { keyring, wrapKey } disk := by
  simp only [openManager, bind, Program.bind, Program.get, hd.written, hd.opens]
  rfl

theorem mintKeyring_sound (h : mintKeyring c wrapKey fresh nonce = .ok keyring) :
    DiskSound c wrapKey [] keyring ⟨some keyring, .empty⟩ := by
  simp only [mintKeyring, bind, Except.bind] at h
  split at h
  · cases h
  · rename_i record hr
    cases h
    obtain ⟨hopen, -, hraw⟩ := openRecord_sealRecord hr
    refine ⟨rfl, checkKeyring_ok_iff.mpr ⟨rfl, by simp, ?_⟩, ?_, ?_, by simp⟩
    · intro hw r hmem
      rw [List.mem_singleton.mp hmem]
      exact hraw hw
    · intro r hmem
      rw [List.mem_singleton.mp hmem]
      exact ⟨fresh.val, hopen⟩
    · intro path records hget
      simp at hget

theorem wp_openManager_fresh (fault : Fault) (mint : Bool) (fresh : Key) (nonce : Nonce) :
    wp (openManager c fault wrapKey mint fresh nonce)
      { ok := fun m disk => m.wrapKey = wrapKey ∧ DiskSound c wrapKey [] m.keyring disk
        error := fun _ disk => disk = ⟨none, .empty⟩
        crash := fun disk => disk = ⟨none, .empty⟩ } ⟨none, .empty⟩ := by
  simp only [openManager, wp_bind, wp_get, wp_ite]
  refine ⟨fun _ => ?_, fun _ => rfl⟩
  cases hmint : mintKeyring c wrapKey fresh nonce with
  | error e => exact rfl
  | ok keyring =>
    have hs := mintKeyring_sound hmint
    simp only [wp_liftExcept_ok, wp_bind, wp_effect, hs.opens]
    exact ⟨fun _ => ⟨trivial, hs⟩, fun _ => trivial, fun _ => trivial⟩

theorem KeyRun.Sound.reopen {fault : Fault} {mint : Bool} (h : r.Sound c wrapKey)
    (ht : r.step c wrapKey (.reopen fault mint fresh nonce) = some t) : t.Sound c wrapKey := by
  obtain ⟨disk, manager, acked⟩ := r
  simp only [KeyRun.step, some.injEq] at ht
  rcases h with ⟨hdisk, -, hacked⟩ | ⟨keyring, hd, -⟩
  · simp only at hdisk hacked
    subst hdisk hacked
    have hopen : (openManager c fault wrapKey mint fresh nonce ⟨none, .empty⟩).Meets _ :=
      wp_openManager_fresh fault mint fresh nonce
    cases ho : openManager c fault wrapKey mint fresh nonce ⟨none, .empty⟩ with
    | ok m disk =>
      simp only [ho] at ht hopen
      subst ht
      obtain ⟨hw, hd⟩ := hopen
      refine .inr ⟨m.keyring, hd, ?_⟩
      rintro _ ⟨⟩
      subst hw
      exact live_self hd
    | error e disk | crash disk =>
      simp only [ho] at ht hopen
      subst ht
      exact .inl ⟨hopen, rfl, rfl⟩
  · rw [openManager_sound hd] at ht
    subst ht
    refine .inr ⟨keyring, hd, ?_⟩
    rintro m ⟨⟩
    exact live_self (m := { keyring, wrapKey }) hd

theorem mem_toOption {e : Except KeyError α} {a : α} (h : e = .ok a) : a ∈ e.toOption := by
  subst h
  rfl

theorem KeyRun.Sound.step {call : KeyCall} (h : r.Sound c wrapKey) (hsafe : StoresSafely c r call)
    (ht : r.step c wrapKey call = some t) : t.Sound c wrapKey := by
  cases call with
  | reopen fault mint fresh nonce => exact h.reopen ht
  | getOrCreate fault fresh nonce workloadID =>
    obtain ⟨m, hm, rfl⟩ := map_eq_some_iff.mp ht
    exact .after (wp_getOrCreateWorkloadKey (h.store hm) (hsafe m hm))
  | importKey fault nonce workloadID version key =>
    obtain ⟨m, hm, rfl⟩ := map_eq_some_iff.mp ht
    exact .after (wp_importWorkloadKey (h.store hm)
      fun hf records hload => hsafe m hm hf records (mem_toOption hload))
  | rotateKey fault fresh nonce workloadID =>
    obtain ⟨m, hm, rfl⟩ := map_eq_some_iff.mp ht
    exact .after (wp_rotateWorkloadKey (h.store hm) fun hf =>
      ⟨(hsafe m hm hf).1, fun records hload => (hsafe m hm hf).2 records (mem_toOption hload)⟩)
  | rotateMaster faults fresh nonce nonceFor now =>
    obtain ⟨m, hm, rfl⟩ := map_eq_some_iff.mp ht
    exact .after (wp_rotateMasterKey (h.store hm))

theorem KeyRun.Sound.recovers (h : r.Sound c wrapKey) {a : Acknowledged} (ha : a ∈ r.acked) :
    r.Recovers c wrapKey a := by
  rcases h with ⟨-, -, hnil⟩ | ⟨keyring, hd, hlive⟩
  · rw [hnil] at ha
    cases ha
  · refine ⟨fun m hm => hd.workloadKey (hlive m hm).agrees ha, fun fault mint fresh nonce => ?_⟩
    exact ⟨_, openManager_sound hd fault mint fresh nonce, hd.workloadKey (fun _ _ h => h) ha⟩

def tagPrimitives : Primitives where
  hkdf dataKey _ _ :=
    if h : dataKey.length = keySize then ⟨dataKey, h⟩ else ⟨List.replicate keySize 0, .refl keySize⟩
  gcmSeal key _ plaintext _ := key.val ++ plaintext
  gcmOpen key _ ciphertext _ :=
    if ciphertext.take keySize = key.val then some (ciphertext.drop keySize) else none
  digest workloadID := workloadID
  gcmOpen_gcmSeal key nonce plaintext aad := by
    simp [key.property]

def sampleKey (byte : UInt8) : Key := ⟨List.replicate keySize byte, by simp⟩

def sampleNonce : Nonce := ⟨List.replicate nonceSize 0, .refl nonceSize⟩

def noFaults : RotateFaults := { activate := .none, rewrap := fun _ => .none, retire := .none }

def orderlyRun : List KeyCall :=
  [.reopen .none true (sampleKey 1) sampleNonce, .getOrCreate .none (sampleKey 10) sampleNonce "a",
   .rotateMaster noFaults (sampleKey 2) sampleNonce (fun _ => sampleNonce) 0,
   .importKey .none sampleNonce "b" 7 (sampleKey 11).val,
   .rotateMaster { noFaults with rewrap := fun path => if path = "b.json" then .fail else .none }
     (sampleKey 3) sampleNonce (fun _ => sampleNonce) 1,
   .rotateKey .none (sampleKey 12) sampleNonce "b",
   .reopen .none false (sampleKey 4) sampleNonce]

def unpersistedRun : List KeyCall :=
  [.reopen .none true (sampleKey 1) sampleNonce,
   .rotateMaster { noFaults with activate := .fail } (sampleKey 2) sampleNonce
     (fun _ => sampleNonce) 0,
   .getOrCreate .none (sampleKey 10) sampleNonce "a"]

end Shiftgate.Securestore
