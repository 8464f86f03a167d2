import Shiftgate.Checkpoint.Manifest
import Shiftgate.Chunkstore.Import
import Shiftgate.Library.Threads

/-! The checkpoint repository of `internal/checkpoint/repository.go`: one encrypted manifest file
for each checkpoint and an encrypted index over them, written without a common lock. -/

namespace Shiftgate.Checkpoint.Repository

open Library Securestore Chunkstore Checkpoint.Manifests Thread

def maxEncryptedManifestBytes : Nat := 8 * 2 ^ 20

inductive RepositoryError where
  | notFound
  | notExist (message : String)
  | other (message : String)
  deriving DecidableEq

def idShape (id : String) : Bool :=
  match id.toList with
  | [] => false
  | first :: rest =>
    first.isAlphanum && rest.length ≤ 127 &&
      rest.all fun c => c.isAlphanum || c = '.' || c = '_' || c = '-'

def reservedRepositoryNames : List String := ["index.enc.json", "trusted-sources.json"]

def validateID (id what : String) : Except RepositoryError Unit :=
  if id = "" then .error (.other (what ++ " is required"))
  else if !idShape id then
    .error (.other ("invalid " ++ what ++ ": ids must be single path-safe components"))
  else if reservedRepositoryNames.contains id then
    .error (.other ("invalid " ++ what ++ ": reserved repository name"))
  else .ok ()

structure EncryptedManifest where
  formatVersion : Int
  workloadID : String
  checkpointID : String
  keyVersion : UInt32
  nonce : Bytes
  ciphertext : Bytes
  deriving DecidableEq, Repr, Countable

structure Summary where
  id : String
  workloadID : String
  workloadName : String
  parentID : String
  kind : CheckpointKind
  createdAt : Int
  plainBytes : Int
  storedBytes : Int
  keyVersion : UInt32
  manifestHash : String
  deriving DecidableEq

/-- `encoding/json` on manifests and envelopes, and Ed25519: what was written is read back. -/
structure Codec extends ChunkPrimitives where
  marshal : CheckpointManifest → Bytes
  unmarshal : Bytes → Option CheckpointManifest
  encodeEnvelope : EncryptedManifest → Bytes
  decodeEnvelope : Bytes → Option EncryptedManifest
  publicKeyID : String → Option String
  decodeSignature : String → Option Bytes
  verifySignature : String → String → Bytes → Bool
  unmarshal_marshal : ∀ m, unmarshal (marshal m) = some m
  decodeEnvelope_encodeEnvelope : ∀ e, decodeEnvelope (encodeEnvelope e) = some e
  encodeEnvelope_ne_nil : ∀ e, encodeEnvelope e ≠ []

def contents (m : CheckpointManifest) : CheckpointManifest :=
  { m with security := { m.security with manifestSignature := "" }, manifestSHA256 := "" }

section Manifests

variable (c : Codec)

def manifestDigest (m : CheckpointManifest) : String := c.sha256 (c.marshal (contents m))

def verifyManifest (m : CheckpointManifest) : Except RepositoryError Unit := do
  validateID m.id "checkpoint id"
  validateID m.workload.id "workload id"
  if m.format ≠ stateFormatName ∨ m.formatVersion ≠ stateFormatVersion then
    throw (.other "unsupported checkpoint state format")
  if m.sourceIdentity.id = "" ∨ m.sourceIdentity.id ≠ m.security.signerMachineID then
    throw (.other "manifest signer identity mismatch")
  if c.publicKeyID m.sourceIdentity.publicKeyPEM ≠ some m.sourceIdentity.id then
    throw (.other "source machine id does not match its public key")
  match c.decodeSignature m.security.manifestSignature with
  | none => throw (.other "invalid manifest signature encoding")
  | some signature =>
    if manifestDigest c m ≠ m.manifestSHA256 then throw (.other "manifest digest mismatch")
    if !c.verifySignature m.sourceIdentity.publicKeyPEM (manifestDigest c m) signature then
      throw (.other "invalid signature")

def manifestAAD (workloadID checkpointID : String) (keyVersion : UInt32) : String :=
  "shift-checkpoint-manifest-v1\n" ++ workloadID ++ "\n" ++ checkpointID ++ "\n" ++
    toString keyVersion

def ofKeyError : KeyError → RepositoryError
  | .notExist message => .notExist message
  | .other message => .other message

structure DataKey where
  version : UInt32
  key : Bytes
  nonce : Nonce

def sealManifest (k : DataKey) (m : CheckpointManifest) :
    Except RepositoryError EncryptedManifest :=
  match encrypt c.toPrimitives k.key m.workload.id "checkpoint-manifest" k.nonce (c.marshal m)
      (manifestAAD m.workload.id m.id k.version) with
  | .error e => .error (ofKeyError e)
  | .ok ciphertext =>
    .ok ⟨1, m.workload.id, m.id, k.version, k.nonce.val, ciphertext⟩

def openEnvelope (dataKey : Bytes) (e : EncryptedManifest) : Except RepositoryError Bytes :=
  if h : e.nonce.length = nonceSize then
    (decrypt c.toPrimitives dataKey e.workloadID "checkpoint-manifest" ⟨e.nonce, h⟩ e.ciphertext
      (manifestAAD e.workloadID e.checkpointID e.keyVersion)).mapError ofKeyError
  else .error (.other "invalid nonce size")

variable (keys : KeySource)

def checkEnvelope (checkpointID : String) (e : EncryptedManifest) :
    Except RepositoryError Unit := do
  if e.formatVersion ≠ 1 ∨ e.workloadID = "" ∨ e.checkpointID ≠ checkpointID ∨ e.keyVersion = 0 then
    throw (.other "invalid encrypted checkpoint manifest envelope")
  validateID e.workloadID "workload id"

def decodeEncryptedManifest (checkpointID : String) (encoded : Bytes) :
    Except RepositoryError (CheckpointManifest × EncryptedManifest) := do
  validateID checkpointID "checkpoint id"
  if encoded.length = 0 ∨ encoded.length > maxEncryptedManifestBytes then
    throw (.other "encrypted checkpoint manifest exceeds size limit")
  match c.decodeEnvelope encoded with
  | none => throw (.other "decode encrypted checkpoint manifest")
  | some e => do
    checkEnvelope checkpointID e
    let dataKey ← (keys e.workloadID e.keyVersion).mapError ofKeyError
    let plaintext ← openEnvelope c dataKey e
    match c.unmarshal plaintext with
    | none => throw (.other "decode checkpoint manifest")
    | some m => do
      if m.id ≠ checkpointID ∨ m.workload.id ≠ e.workloadID then
        throw (.other "encrypted envelope and checkpoint manifest disagree")
      verifyManifest c m
      return (m, e)

def checkLoaded (id : String) (summary : Summary) (encoded : Bytes) :
    Except RepositoryError CheckpointManifest := do
  if encoded.length > maxEncryptedManifestBytes then
    throw (.other "encrypted checkpoint manifest exceeds size limit")
  let (m, e) ← decodeEncryptedManifest c keys id encoded
  if e.formatVersion ≠ 1 ∨ e.workloadID ≠ summary.workloadID ∨ e.checkpointID ≠ id ∨
      e.keyVersion ≠ summary.keyVersion then
    throw (.other "checkpoint index and encrypted manifest disagree")
  if m.manifestSHA256 ≠ summary.manifestHash then
    throw (.other "manifest hash does not match checkpoint index")
  return m

def summarize (m : CheckpointManifest) (keyVersion : UInt32) : Summary where
  id := m.id
  workloadID := m.workload.id
  workloadName := m.workload.name
  parentID := m.parentID
  kind := m.kind
  createdAt := m.createdAt
  plainBytes := m.metrics.plainBytes
  storedBytes := m.metrics.storedBytes
  keyVersion := keyVersion
  manifestHash := m.manifestSHA256

end Manifests

/-- `workloadKey` is `GetOrCreateWorkloadKey` with the draw of the nonce; `removeDirectory` removes
the directory of the manifest file. -/
inductive Command where
  | workloadKey (workloadID : String)
  | indexGet (id : String)
  | indexList
  | indexPut (id : String) (summary : Summary)
  | indexDelete (id : String)
  | readManifest (id : String)
  | writeManifest (id : String) (encoded : Bytes)
  | removeManifest (id : String)
  | removeDirectory (id : String)

@[reducible] def Reply : Command → Type
  | .workloadKey _ => Except RepositoryError DataKey
  | .indexGet _ => Option Summary
  | .indexList => List Summary
  | .readManifest _ => Except RepositoryError Bytes
  | .indexPut _ _ => Except RepositoryError Unit
  | .indexDelete _ => Except RepositoryError Unit
  | .writeManifest _ _ => Except RepositoryError Unit
  | .removeManifest _ => Except RepositoryError Unit
  | .removeDirectory _ => Except RepositoryError Unit

abbrev Caller (α : Type) := Thread Reply α

def access (command : Command) : Caller (Reply command) := Thread.perform command

section Programs

variable (c : Codec) (keys : KeySource)

def loadEncryptedManifest (id : String) :
    Caller (Except RepositoryError (CheckpointManifest × Bytes)) :=
  match validateID id "checkpoint id" with
  | .error e => pure (.error e)
  | .ok () => do
    match ← access (.indexGet id) with
    | none => pure (.error .notFound)
    | some summary =>
      match ← access (.readManifest id) with
      | .error e => pure (.error e)
      | .ok encoded => pure ((checkLoaded c keys id summary encoded).map (·, encoded))

def load (id : String) : Caller (Except RepositoryError CheckpointManifest) := do
  return (← loadEncryptedManifest c keys id).map (·.1)

def exportEncryptedManifest (id : String) : Caller (Except RepositoryError Bytes) := do
  return (← loadEncryptedManifest c keys id).map (·.2)

/-- The file is written first; a failed index write removes it again. -/
def saveSealed (m : CheckpointManifest) (e : EncryptedManifest) :
    Caller (Except RepositoryError Unit) := do
  match ← access (.writeManifest m.id (c.encodeEnvelope e)) with
  | .error e => pure (.error e)
  | .ok () =>
    match ← access (.indexPut m.id (summarize m e.keyVersion)) with
    | .ok () => pure (.ok ())
    | .error e => do
      let _ ← access (.removeManifest m.id)
      pure (.error e)

def absent : RepositoryError → Bool
  | .notFound => true
  | .notExist _ => true
  | .other _ => false

def save (m : CheckpointManifest) : Caller (Except RepositoryError Unit) :=
  match verifyManifest c m with
  | .error e => pure (.error e)
  | .ok () => do
    match ← access (.workloadKey m.workload.id) with
    | .error e => pure (.error e)
    | .ok k =>
      match sealManifest c k m with
      | .error e => pure (.error e)
      | .ok envelope => do
        match ← load c keys m.id with
        | .ok existing =>
          if existing.manifestSHA256 = m.manifestSHA256 then pure (.ok ())
          else pure (.error (.other "checkpoint id already exists with different contents"))
        | .error e => if absent e then saveSealed c m envelope else pure (.error e)

def list (workloadID : String) : Caller (List Summary) := do
  let values ← access .indexList
  return (values.filter fun s => workloadID = "" || s.workloadID = workloadID).insertionSort
    fun s t => t.createdAt ≤ s.createdAt

def delete (id : String) : Caller (Except RepositoryError Unit) :=
  match validateID id "checkpoint id" with
  | .error e => pure (.error e)
  | .ok () => do
    match ← access (.indexGet id) with
    | none => pure (.error .notFound)
    | some _ =>
      match ← access (.indexDelete id) with
      | .error e => pure (.error e)
      | .ok () => access (.removeDirectory id)

end Programs

structure Cabinet where
  index : FileTable Summary
  manifests : FileTable Bytes

inductive Happens where
  | yes
  | fails
  | unreported
  deriving DecidableEq

structure Choice where
  happens : Happens
  version : UInt32
  nonce : Nonce

def report (happens : Happens) (message : String) : Except RepositoryError Unit :=
  if happens = .yes then .ok () else .error (.other message)

def serve (keys : KeySource) (s : Cabinet) (x : Choice) :
    (command : Command) → Cabinet × Reply command
  | .workloadKey workloadID =>
    (s, if x.happens = .yes then
          match keys workloadID x.version with
          | .ok key => .ok ⟨x.version, key, x.nonce⟩
          | .error e => .error (ofKeyError e)
        else .error (.other "read workload key"))
  | .indexGet id => (s, s.index.get id)
  | .indexList => (s, s.index.entries.map Prod.snd)
  | .indexPut id summary =>
    (if x.happens = .yes then { s with index := s.index.set id summary } else s,
      report x.happens "append index entry")
  | .indexDelete id =>
    (if x.happens = .yes then { s with index := s.index.erase id } else s,
      report x.happens "append index entry")
  | .readManifest id =>
    (s, if x.happens = .yes then
          match s.manifests.get id with
          | some encoded => .ok encoded
          | none => .error (.notExist "open manifest.enc.json")
        else .error (.other "read manifest.enc.json"))
  | .writeManifest id encoded =>
    (if x.happens = .fails then s else { s with manifests := s.manifests.set id encoded },
      report x.happens "write manifest.enc.json")
  | .removeManifest id =>
    (if x.happens = .fails then s else { s with manifests := s.manifests.erase id },
      report x.happens "remove manifest.enc.json")
  | .removeDirectory id =>
    (if x.happens = .fails then s else { s with manifests := s.manifests.erase id },
      report x.happens "remove checkpoint directory")

def stored (c : Codec) (keys : KeySource) (s : Cabinet) (id : String) :
    Except RepositoryError (CheckpointManifest × Bytes) :=
  match validateID id "checkpoint id" with
  | .error e => .error e
  | .ok () =>
    match s.index.get id with
    | none => .error .notFound
    | some summary =>
      match s.manifests.get id with
      | none => .error (.notExist "open manifest.enc.json")
      | some encoded => (checkLoaded c keys id summary encoded).map (·, encoded)

section Sealed

variable {c : Codec} {keys : KeySource} {m : CheckpointManifest} {k : DataKey}
  {e : EncryptedManifest}

theorem guard_ok {ε α : Type} {p : Prop} [Decidable p] {e : ε} {x : Except ε α} {a : α} :
    (if p then (throw e : Except ε PUnit) >>= fun _ => x else x) = .ok a ↔ ¬ p ∧ x = .ok a := by
  by_cases hp : p
  · simp only [hp, if_true, not_true, false_and, iff_false]
    exact nofun
  · simp [hp]

structure Verified (c : Codec) (m : CheckpointManifest) : Prop where
  id : validateID m.id "checkpoint id" = .ok ()
  workload : validateID m.workload.id "workload id" = .ok ()
  signer : m.security.signerMachineID ≠ ""
  digest : manifestDigest c m = m.manifestSHA256

theorem verifyManifest_ok (h : verifyManifest c m = .ok ()) : Verified c m := by
  simp only [verifyManifest, bind_ok, guard_ok] at h
  obtain ⟨_, hid, _, hworkload, -, hsigner, -, h⟩ := h
  rw [not_or, not_not] at hsigner
  cases hsig : c.decodeSignature m.security.manifestSignature with
  | none =>
    rw [hsig] at h
    cases h
  | some signature =>
    rw [hsig] at h
    simp only [guard_ok] at h
    exact ⟨hid, hworkload, hsigner.2 ▸ hsigner.1, not_not.mp h.1⟩

theorem contents_eq_of_digest (hsha : Function.Injective c.sha256) {m' : CheckpointManifest}
    (h : verifyManifest c m = .ok ()) (h' : verifyManifest c m' = .ok ())
    (hdigest : m.manifestSHA256 = m'.manifestSHA256) : contents m = contents m' := by
  rw [← (verifyManifest_ok h).digest, ← (verifyManifest_ok h').digest] at hdigest
  have hbytes := congrArg c.unmarshal (hsha hdigest)
  rw [c.unmarshal_marshal, c.unmarshal_marshal] at hbytes
  exact Option.some.inj hbytes

theorem openEnvelope_sealManifest (h : sealManifest c k m = .ok e) :
    e.formatVersion = 1 ∧ e.workloadID = m.workload.id ∧ e.checkpointID = m.id ∧
      e.keyVersion = k.version ∧ openEnvelope c k.key e = .ok (c.marshal m) := by
  by_cases hlength : k.key.length ≠ keySize
  · simp only [sealManifest, encrypt, derive, if_pos hlength] at h
    cases h
  · simp only [sealManifest, encrypt, derive, if_neg hlength] at h
    cases h
    refine ⟨rfl, rfl, rfl, rfl, ?_⟩
    have hnonce : k.nonce.val.length = nonceSize := k.nonce.2
    simp only [openEnvelope, hnonce, dif_pos, decrypt, derive, if_neg hlength]
    show Except.mapError ofKeyError (match c.gcmOpen _ _ (c.gcmSeal _ _ _ _) _ with
      | some plaintext => _
      | none => _) = _
    rw [c.gcmOpen_gcmSeal]
    rfl

variable {id : String} {encoded : Bytes}

theorem validateID_ne_empty {what : String} (h : validateID id what = .ok ()) : id ≠ "" := by
  rintro rfl
  simp [validateID] at h

section

variable (hseal : sealManifest c k m = .ok e) (hverify : verifyManifest c m = .ok ())
  (hkey : keys m.workload.id k.version = .ok k.key) (hversion : k.version ≠ 0)
  (hsize : (c.encodeEnvelope e).length ≤ maxEncryptedManifestBytes)

include hseal hverify hkey hversion hsize

theorem decodeEncryptedManifest_seal :
    decodeEncryptedManifest c keys m.id (c.encodeEnvelope e) = .ok (m, e) := by
  obtain ⟨hformat, hworkload, hcheckpoint, hkeyVersion, hopen⟩ := openEnvelope_sealManifest hseal
  have hv := verifyManifest_ok hverify
  have hbounds : ¬ ((c.encodeEnvelope e).length = 0 ∨
      (c.encodeEnvelope e).length > maxEncryptedManifestBytes) := by
    rintro (h | h)
    · exact c.encodeEnvelope_ne_nil e (List.length_eq_zero_iff.mp h)
    · omega
  have hchecks : checkEnvelope m.id e = .ok () := by
    simp only [checkEnvelope, guard_ok]
    refine ⟨?_, by rw [hworkload]; exact hv.workload⟩
    rintro (h | h | h | h)
    · exact h hformat
    · exact validateID_ne_empty hv.workload (hworkload ▸ h)
    · exact h hcheckpoint
    · exact hversion (hkeyVersion ▸ h)
  simp only [decodeEncryptedManifest, bind_ok, guard_ok]
  refine ⟨(), hv.id, hbounds, ?_⟩
  rw [c.decodeEnvelope_encodeEnvelope]
  simp only [bind_ok]
  refine ⟨(), hchecks, k.key, ?_, c.marshal m, hopen, ?_⟩
  · rw [hworkload, hkeyVersion, hkey]
    rfl
  · rw [c.unmarshal_marshal]
    simp only [bind_ok, guard_ok]
    refine ⟨?_, (), hverify, rfl⟩
    rintro (h | h)
    · exact h rfl
    · exact h hworkload.symm

theorem checkLoaded_seal :
    checkLoaded c keys m.id (summarize m e.keyVersion) (c.encodeEnvelope e) = .ok m := by
  obtain ⟨hformat, hworkload, hcheckpoint, -, -⟩ := openEnvelope_sealManifest hseal
  simp only [checkLoaded, bind_ok, guard_ok]
  refine ⟨by omega, (m, e), decodeEncryptedManifest_seal hseal hverify hkey hversion hsize, ?_⟩
  simp [hformat, hworkload, hcheckpoint, summarize]
  rfl

end

structure Loaded (c : Codec) (keys : KeySource) (id : String) (summary : Summary) (encoded : Bytes)
    (m : CheckpointManifest) : Prop where
  verified : verifyManifest c m = .ok ()
  id_eq : m.id = id
  workload_eq : summary.workloadID = m.workload.id
  hash_eq : summary.manifestHash = m.manifestSHA256
  size : encoded.length ≤ maxEncryptedManifestBytes
  decoded : ∃ e, decodeEncryptedManifest c keys id encoded = .ok (m, e)

structure Decoded (c : Codec) (keys : KeySource) (id : String) (encoded : Bytes)
    (m : CheckpointManifest) (e : EncryptedManifest) : Prop where
  verified : verifyManifest c m = .ok ()
  id_eq : m.id = id
  workload_eq : m.workload.id = e.workloadID
  envelope : c.decodeEnvelope encoded = some e
  version : e.keyVersion ≠ 0
  key : ∃ dataKey, keys e.workloadID e.keyVersion = .ok dataKey

section

variable (h : decodeEncryptedManifest c keys id encoded = .ok (m, e))

include h

theorem decodeEncryptedManifest_ok : Decoded c keys id encoded m e := by
  simp only [decodeEncryptedManifest, bind_ok, guard_ok] at h
  obtain ⟨_, -, -, h⟩ := h
  cases henvelope : c.decodeEnvelope encoded with
  | none =>
    rw [henvelope] at h
    cases h
  | some envelope =>
    rw [henvelope] at h
    simp only [bind_ok] at h
    obtain ⟨_, hcheck, dataKey, hkey, plaintext, -, h⟩ := h
    simp only [checkEnvelope, guard_ok, not_or] at hcheck
    cases hplain : c.unmarshal plaintext with
    | none =>
      rw [hplain] at h
      cases h
    | some found =>
      rw [hplain] at h
      simp only [bind_ok, guard_ok] at h
      obtain ⟨hsame, _, hverify, h⟩ := h
      cases h
      rw [not_or, not_not, not_not] at hsame
      refine ⟨hverify, hsame.1, hsame.2, henvelope, hcheck.1.2.2.2, dataKey, ?_⟩
      cases hfound : keys e.workloadID e.keyVersion with
      | ok found =>
        rw [hfound] at hkey
        exact congrArg Except.ok (Except.ok.inj hkey)
      | error e =>
        rw [hfound] at hkey
        cases hkey

theorem decodeEncryptedManifest_keys {keys' : KeySource}
    (hkeys : ∀ v key, keys m.workload.id v = .ok key → keys' m.workload.id v = .ok key) :
    decodeEncryptedManifest c keys' id encoded = .ok (m, e) := by
  have hd := decodeEncryptedManifest_ok h
  obtain ⟨dataKey, hkey⟩ := hd.key
  have hsame : keys' e.workloadID e.keyVersion = keys e.workloadID e.keyVersion := by
    rw [hkey, ← hd.workload_eq]
    exact hkeys _ _ (hd.workload_eq ▸ hkey)
  unfold decodeEncryptedManifest at h ⊢
  rw [hd.envelope] at h ⊢
  simpa only [hsame] using h

end

theorem checkLoaded_ok {summary : Summary} (h : checkLoaded c keys id summary encoded = .ok m) :
    Loaded c keys id summary encoded m := by
  simp only [checkLoaded, bind_ok, guard_ok] at h
  obtain ⟨hsize, ⟨found, envelope⟩, hdecode, hsame, hhash, h⟩ := h
  cases h
  have hd := decodeEncryptedManifest_ok hdecode
  rw [not_or, not_or, not_not, not_not] at hsame
  exact ⟨hd.verified, hd.id_eq, hsame.2.1.symm.trans hd.workload_eq.symm, (not_not.mp hhash).symm,
    by omega, envelope, hdecode⟩

section Quiet

variable {s : Cabinet} {x : Choice}

theorem loadEncryptedManifest_alone (hx : x.happens = .yes) (id : String) (s : Cabinet) :
    (loadEncryptedManifest c keys id).alone (fun s => serve keys s x) s =
      (s, stored c keys s id) := by
  unfold loadEncryptedManifest stored
  cases validateID id "checkpoint id" with
  | error e => rfl
  | ok _ =>
    simp only [access, perform_bind, alone_ask, serve]
    cases s.index.get id with
    | none => rfl
    | some summary =>
      simp only [hx, if_true, alone_ask, serve]
      cases s.manifests.get id <;> rfl

theorem save_alone (hx : x.happens = .yes) (hverify : verifyManifest c m = .ok ())
    {key : Bytes} (hkey : keys m.workload.id x.version = .ok key)
    (hseal : sealManifest c ⟨x.version, key, x.nonce⟩ m = .ok e) :
    (save c keys m).alone (fun s => serve keys s x) s =
      match stored c keys s m.id with
      | .ok (existing, _) =>
        (s, if existing.manifestSHA256 = m.manifestSHA256 then .ok ()
            else .error (.other "checkpoint id already exists with different contents"))
      | .error err =>
        if absent err then
          ({ index := s.index.set m.id (summarize m x.version)
             manifests := s.manifests.set m.id (c.encodeEnvelope e) }, .ok ())
        else (s, .error err) := by
  have hversion := (openEnvelope_sealManifest hseal).2.2.2.1
  have hload : (load c keys m.id).alone (fun s => serve keys s x) s =
      (s, (stored c keys s m.id).map (·.1)) := by
    unfold load
    rw [alone_bind, loadEncryptedManifest_alone hx]
    rfl
  unfold save
  rw [hverify]
  simp only [access, perform_bind, alone_ask, serve, hx, if_true, hkey, hseal]
  rw [alone_bind, hload]
  cases stored c keys s m.id with
  | ok found =>
    show alone _ (if _ then _ else _) s = _
    split <;> simp_all [Except.map]
  | error err =>
    show alone _ (if _ then _ else _) s = (if _ then _ else _)
    split
    · simp only [saveSealed, access, perform_bind, alone_ask, serve, hx, report,
        if_true, hversion]
      rfl
    · rfl

end Quiet

end Sealed

namespace Sample

section Encoding

variable {α : Type} [Countable α]

noncomputable def numberOf (a : α) : Nat := (exists_injective_nat α).choose a

theorem numberOf_injective : Function.Injective (numberOf : α → Nat) :=
  (exists_injective_nat α).choose_spec

variable [DecidableEq α] (known : List α)

noncomputable def encode (a : α) : Bytes :=
  if known.idxOf a < known.length then [UInt8.ofNat (known.idxOf a)]
  else 0 :: 0 :: List.replicate (numberOf a) 0

open Classical in
noncomputable def decode : Bytes → Option α
  | [] => none
  | [place] => known[place.toNat]?
  | _ :: _ :: rest =>
    if h : ∃ a : α, numberOf a = rest.length then some h.choose else none

theorem decode_encode (hknown : known.length ≤ 256) (a : α) :
    decode known (encode known a) = some a := by
  unfold encode
  split
  · rename_i hlt
    have hplace : (UInt8.ofNat (known.idxOf a)).toNat = known.idxOf a := by
      rw [UInt8.toNat_ofNat']
      omega
    rw [decode, hplace, List.getElem?_eq_getElem hlt, List.getElem_idxOf]
  · have hexists : ∃ b : α, numberOf b = (List.replicate (numberOf a) (0 : UInt8)).length :=
      ⟨a, by simp⟩
    rw [decode, dif_pos hexists]
    have hchosen : numberOf hexists.choose = numberOf a :=
      hexists.choose_spec.trans List.length_replicate
    rw [numberOf_injective hchosen]

theorem encode_ne_nil (a : α) : encode known a ≠ [] := by
  unfold encode
  split <;> simp

end Encoding

def primitives : ChunkPrimitives :=
  { plainPrimitives with sha256 := fun bytes => plainPrimitives.sha256 (0 :: bytes) }

theorem sha256_injective : Function.Injective primitives.sha256 := fun _ _ h =>
  List.cons_injective (sha256_plainPrimitives_injective h)

theorem sha256_ne_empty (bytes : Bytes) : primitives.sha256 bytes ≠ "" := by
  intro h
  simpa [primitives, plainPrimitives] using congrArg String.toList h

def workload : WorkloadSpec :=
  { sampleWorkload [] with command := ["/bin/worker"], paths := [] }

def unsigned (chunks : List AssetChunk) : CheckpointManifest where
  format := stateFormatName
  formatVersion := stateFormatVersion
  id := "c"
  parentID := ""
  kind := .full
  workload := workload
  sourceIdentity := ⟨"source", "source", ""⟩
  sourceMachine := sampleMachine
  createdAt := 0
  engine := ⟨"criu", "4.0", true, false, false, 0, false, false, false⟩
  assets := [⟨"memory", "", chunks.length, 0, "", chunks, true, 1⟩]
  stateInventory := []
  filesystem := .zero
  dependencies := []
  deviceNeeds := []
  requiredBytes := 0
  metrics := ⟨0, 0, 0, 0, 0, 0, 0, 0⟩
  security := ⟨1, "", "source", "Ed25519+SHA-256"⟩
  manifestSHA256 := ""
  compatibilityID := ""

def chunk : AssetChunk where
  address := String.ofList (List.replicate 64 '0')
  keyVersion := 1
  plainSize := 1
  storedSize := (sampleChunk 1).length
  cipherSHA256 := primitives.sha256 (sampleChunk 1)
  plainSHA256 := primitives.sha256 [9]
  sequence := 0
  compression := .zstd
  encryption := "AES-256-GCM"

def signed (place : UInt8) (chunks : List AssetChunk) : CheckpointManifest :=
  { unsigned chunks with
    security := ⟨1, "signature", "source", "Ed25519+SHA-256"⟩
    manifestSHA256 := primitives.sha256 [place] }

def full : CheckpointManifest := signed 1 [chunk]

def bare : CheckpointManifest := signed 3 []

def manifests : List CheckpointManifest := [full, unsigned [chunk], bare, unsigned []]

def nonce (byte : UInt8) : Nonce := ⟨List.replicate nonceSize byte, by simp⟩

def envelope (place byte : UInt8) : EncryptedManifest where
  formatVersion := 1
  workloadID := "w"
  checkpointID := "c"
  keyVersion := 1
  nonce := (nonce byte).val
  ciphertext := List.replicate keySize 7 ++ (nonce byte).val ++ [place]

def envelopes : List EncryptedManifest := [envelope 0 1, envelope 0 2, envelope 2 1, envelope 2 2]

noncomputable def codec : Codec :=
  { primitives with
    marshal := encode manifests
    unmarshal := decode manifests
    encodeEnvelope := encode envelopes
    decodeEnvelope := decode envelopes
    publicKeyID := fun _ => some "source"
    decodeSignature := fun _ => some []
    verifySignature := fun _ _ _ => true
    unmarshal_marshal := decode_encode manifests (by decide)
    decodeEnvelope_encodeEnvelope := decode_encode envelopes (by decide)
    encodeEnvelope_ne_nil := encode_ne_nil envelopes }

end Sample

end Shiftgate.Checkpoint.Repository
