import Shiftgate.Checkpoint.Repository
import Shiftgate.Objectstore.Objects

/-! The object-store mirror of `internal/checkpoint/mirror.go`. In the object store an object is not
replaced by another content (`objectstore.ErrConflict`). -/

namespace Shiftgate.Checkpoint.Mirrors

open Library Securestore Chunkstore Checkpoint.Manifests
  Checkpoint.Repository
open Objectstore (ObjectInfo PartInfo MultipartUpload maxObjectSize validateKey
  validateParts)

def multipartThresholdBytes : Int := 8 * 2 ^ 20

def multipartPartSizeBytes : Nat := 8 * 2 ^ 20

/-- The codec with `strings.EqualFold`. Digests are in small letters and free of collisions. -/
structure MirrorCodec extends Codec where
  equalFold : String → String → Bool
  equalFold_refl : ∀ s, equalFold s s = true
  equalFold_digest : ∀ a b, equalFold (sha256 a) (sha256 b) = true → sha256 a = sha256 b
  sha256_injective : Function.Injective sha256
  sha256_ne_empty : ∀ b, sha256 b ≠ ""

inductive StoreError where
  | notFound
  | conflict
  | integrity
  | invalidKey
  | invalidPart
  | invalidUpload
  deriving DecidableEq

structure Pending where
  upload : MultipartUpload
  parts : List (PartInfo × Bytes)
  deriving DecidableEq

structure Remote where
  objects : FileTable Bytes
  uploads : FileTable Pending
  deriving DecidableEq

section Store

variable (c : MirrorCodec)

def describe (key : String) (content : Bytes) : ObjectInfo :=
  ⟨key, content.length, c.sha256 content⟩

def Remote.get (r : Remote) (key : String) : Except StoreError (ObjectInfo × Bytes) :=
  if validateKey key ≠ .ok () then .error .invalidKey
  else
    match r.objects.get key with
    | none => .error .notFound
    | some content => .ok (describe c key content, content)

def Remote.head (r : Remote) (key : String) : Except StoreError ObjectInfo :=
  (r.get c key).map (·.1)

def Remote.commit (r : Remote) (key : String) (content : Bytes) :
    Except StoreError (ObjectInfo × Remote) :=
  match r.objects.get key with
  | some existing =>
    if existing = content then .ok (describe c key content, r) else .error .conflict
  | none => .ok (describe c key content, { r with objects := r.objects.set key content })

def Remote.put (r : Remote) (key : String) (content : Bytes) (size : Int)
    (expectedSHA256 : String) : Except StoreError (ObjectInfo × Remote) :=
  if validateKey key ≠ .ok () then .error .invalidKey
  else if size < 0 ∨ size > maxObjectSize ∨ (content.length : Int) ≠ size then .error .integrity
  else if expectedSHA256 ≠ "" ∧ c.equalFold expectedSHA256 (c.sha256 content) = false then
    .error .integrity
  else r.commit c key content

def Remote.initiateMultipart (r : Remote) (uploadID key : String) (totalSize : Int)
    (expectedSHA256 : String) : Except StoreError (String × Remote) :=
  if validateKey key ≠ .ok () then .error .invalidKey
  else if totalSize < 0 ∨ totalSize > maxObjectSize then .error .invalidUpload
  else .ok (uploadID,
    { r with uploads := r.uploads.set uploadID ⟨⟨key, totalSize, expectedSHA256⟩, []⟩ })

def Remote.listParts (r : Remote) (uploadID : String) : Except StoreError (List PartInfo) :=
  match r.uploads.get uploadID with
  | none => .error .notFound
  | some pending => .ok (pending.parts.map (·.1))

def Remote.uploadPart (r : Remote) (uploadID : String) (number : Int) (content : Bytes) :
    Except StoreError (PartInfo × Remote) :=
  if number < 1 ∨ number > 10000 then .error .invalidPart
  else
    match r.uploads.get uploadID with
    | none => .error .notFound
    | some pending =>
      let part : PartInfo := ⟨number, content.length, c.sha256 content⟩
      match pending.parts.find? (·.1.number = number) with
      | some (existing, _) => if existing = part then .ok (existing, r) else .error .conflict
      | none =>
        .ok (part, { r with
          uploads := r.uploads.set uploadID
            { pending with parts := pending.parts ++ [(part, content)] } })

def joinParts (stored : List (PartInfo × Bytes)) : List PartInfo → Except StoreError Bytes
  | [] => .ok []
  | part :: rest =>
    match stored.find? (·.1.number = part.number) with
    | none => .error .invalidPart
    | some (_, content) =>
      if (content.length : Int) ≠ part.size ∨ c.sha256 content ≠ part.sha256 then .error .integrity
      else (joinParts stored rest).map (content ++ ·)

def Remote.completeMultipart (r : Remote) (uploadID : String) (parts : List PartInfo) :
    Except StoreError (ObjectInfo × Remote) :=
  match r.uploads.get uploadID with
  | none => .error .notFound
  | some pending =>
    let parts := if parts.isEmpty then pending.parts.map (·.1) else parts
    if !validateParts parts then .error .invalidPart
    else
      match joinParts c pending.parts parts with
      | .error e => .error e
      | .ok content =>
        if (content.length : Int) ≠ pending.upload.totalSize then .error .integrity
        else if pending.upload.expectedSHA256 ≠ "" ∧
            c.equalFold pending.upload.expectedSHA256 (c.sha256 content) = false then
          .error .integrity
        else
          match r.commit c pending.upload.key content with
          | .error e => .error e
          | .ok (info, r) => .ok (info, { r with uploads := r.uploads.erase uploadID })

end Store

/-- The repository and the chunk store, the keys with the newest version of each workload's, and the
trusted signers. -/
structure Machine where
  cabinet : Cabinet
  files : Files
  keys : KeySource
  newest : String → UInt32
  trusted : String → Bool

inductive MirrorError where
  | store (e : StoreError)
  | repository (e : RepositoryError)
  | chunk (message : String)
  | untrustedSigner (signer : String)
  | other (message : String)
  deriving DecidableEq

def Machine.quiet (machine : Machine) (workloadID : String) (nonce : Nonce) (s : Cabinet) :
    (command : Command) → Cabinet × Reply command :=
  serve machine.keys s ⟨.yes, machine.newest workloadID, nonce⟩

def zeroNonce : Nonce := ⟨List.replicate nonceSize 0, by simp⟩

section Mirror

variable (c : MirrorCodec)

def Machine.loadEncrypted (machine : Machine) (id : String) :
    Except RepositoryError (CheckpointManifest × Bytes) :=
  ((loadEncryptedManifest c.toCodec machine.keys id).alone (machine.quiet "" zeroNonce)
    machine.cabinet).2

def Machine.save (machine : Machine) (nonce : Nonce) (m : CheckpointManifest) :
    Machine × Except RepositoryError Unit :=
  let result := (Repository.save c.toCodec machine.keys m).alone
    (machine.quiet m.workload.id nonce) machine.cabinet
  ({ machine with cabinet := result.1 }, result.2)

def uniqueChunkRefs (assets : List AssetManifest) : List ChunkRef :=
  (assets.flatMap fun asset => asset.chunks.map (·.toChunkRef)).foldl
    (fun refs ref =>
      if refs.any fun seen => seen.keyVersion = ref.keyVersion && seen.address = ref.address then
        refs
      else refs ++ [ref]) []

def chunkObjectKey (ref : ChunkRef) : String :=
  "chunks/v" ++ toString ref.keyVersion ++ "/" ++ ref.address

def checkpointManifestKey (checkpointID : String) : String :=
  "checkpoints/" ++ checkpointID ++ "/manifest.enc.json"

def verifyMirroredObject (info : ObjectInfo) (size : Int) (digest : String) :
    Except MirrorError Unit :=
  if info.size = size ∧ c.equalFold info.sha256 digest = true then .ok ()
  else .error (.store .integrity)

def exportChunk (files : Files) (ref : ChunkRef) : Except String (Bytes × Option String) := do
  let path ← chunkPath ref
  match files.get path with
  | none => throw "no such file or directory"
  | some stored =>
    let sent := stored.take (maxEncodedChunk + 1)
    if (sent.length : Int) ≠ ref.storedSize then
      return (sent, some ("chunk " ++ ref.address ++ " stored size mismatch"))
    else if c.sha256 sent ≠ ref.cipherSHA256 then
      return (sent, some ("chunk " ++ ref.address ++ " ciphertext digest mismatch"))
    else return (sent, none)

def onStore {α : Type} (step : Remote → Except StoreError (α × Remote)) :
    Program Remote MirrorError α := fun r =>
  match step r with
  | .ok (a, r') => .ok a r'
  | .error e => .error (.store e) r

def look {α : Type} (read : Remote → Except StoreError α) : Program Remote MirrorError α :=
  onStore fun r => (read r).map (·, r)

def findOrCreateMultipart (uploadID key : String) (ref : ChunkRef) :
    Program Remote MirrorError String := do
  let r ← Program.get
  match r.uploads.names.find? fun id => (r.uploads.get id).any fun pending =>
      pending.upload.key = key && pending.upload.totalSize = ref.storedSize &&
        c.equalFold pending.upload.expectedSHA256 ref.cipherSHA256 with
  | some found => pure found
  | none => onStore fun r => r.initiateMultipart uploadID key ref.storedSize ref.cipherSHA256

def flushParts (uploadID : String) (existing : List PartInfo) :
    Int → List Bytes → Program Remote MirrorError (List PartInfo)
  | _, [] => pure []
  | number, piece :: rest => do
    let digest := c.sha256 piece
    let known := existing.any fun part =>
      part.number = number && part.size = piece.length && c.equalFold part.sha256 digest
    if known then pure () else do
      let _ ← onStore fun r => r.uploadPart c uploadID number piece
      pure ()
    let parts ← flushParts uploadID existing (number + 1) rest
    pure (⟨number, piece.length, digest⟩ :: parts)

/-- An export that fails at its end leaves its full parts behind. -/
def putMultipart (uploadID key : String) (ref : ChunkRef) (sent : Bytes)
    (failure : Option String) : Program Remote MirrorError ObjectInfo := do
  let id ← findOrCreateMultipart c uploadID key ref
  let existing ← look fun r => r.listParts id
  let pieces := sent.toChunks multipartPartSizeBytes
  match failure with
  | some message => do
    let _ ← flushParts c id existing 1
      (pieces.filter fun piece => piece.length = multipartPartSizeBytes)
    Program.throw (.chunk message)
  | none => do
    let parts ← flushParts c id existing 1 pieces
    onStore fun r => r.completeMultipart c id parts

def uploadChunk (files : Files) (uploadID key : String) (ref : ChunkRef) :
    Program Remote MirrorError ObjectInfo :=
  match exportChunk c files ref with
  | .error message => Program.throw (.chunk message)
  | .ok (sent, failure) =>
    if ref.storedSize < multipartThresholdBytes then
      match failure with
      | some message => Program.throw (.chunk message)
      | none => onStore fun r => r.put c key sent ref.storedSize ref.cipherSHA256
    else putMultipart c uploadID key ref sent failure

structure MirrorResult where
  checkpointID : String
  objects : Nat
  bytes : Int
  deriving DecidableEq

def MirrorResult.add (result : MirrorResult) (bytes : Int) : MirrorResult :=
  { result with objects := result.objects + 1, bytes := result.bytes + bytes }

def uploadRef (files : Files) (uploadIDs : ChunkRef → String) (ref : ChunkRef) :
    Program Remote MirrorError Unit := do
  let key := chunkObjectKey ref
  match ← Program.attempt (look fun r => r.head c key) with
  | .ok info => Program.liftExcept (verifyMirroredObject c info ref.storedSize ref.cipherSHA256)
  | .error (.store .notFound) => do
    let info ← uploadChunk c files (uploadIDs ref) key ref
    Program.liftExcept (verifyMirroredObject c info ref.storedSize ref.cipherSHA256)
  | .error e => Program.throw e

def uploadRefs (files : Files) (uploadIDs : ChunkRef → String) :
    List ChunkRef → MirrorResult → Program Remote MirrorError MirrorResult
  | [], result => pure result
  | ref :: rest, result => do
    uploadRef c files uploadIDs ref
    uploadRefs files uploadIDs rest (result.add ref.storedSize)

def upload (machine : Machine) (uploadIDs : ChunkRef → String) (m : CheckpointManifest) :
    Program Remote MirrorError MirrorResult := do
  Program.liftExcept ((verifyManifest c.toCodec m).mapError .repository)
  let (stored, _) ← Program.liftExcept ((machine.loadEncrypted c m.id).mapError .repository)
  if stored.manifestSHA256 ≠ m.manifestSHA256 then
    Program.throw (.other "local checkpoint manifest differs from upload request")
  else do
    let result ← uploadRefs c machine.files uploadIDs (uniqueChunkRefs stored.assets) ⟨m.id, 0, 0⟩
    let (_, encoded) ← Program.liftExcept ((machine.loadEncrypted c m.id).mapError .repository)
    let digest := c.sha256 encoded
    let info ← onStore fun r => r.put c (checkpointManifestKey m.id) encoded encoded.length digest
    Program.liftExcept (verifyMirroredObject c info encoded.length digest)
    pure (result.add encoded.length)

def quietImport : ImportFaults :=
  ⟨.none, .none, .none, .none, .none, .none, .none, .none, .none, .none⟩

def missing (files : Files) (ref : ChunkRef) : Except String Bool := do
  let path ← chunkPath ref
  match files.get path with
  | none => return true
  | some stored =>
    if (stored.length : Int) ≠ ref.storedSize then return true
    else return ref.cipherSHA256 ≠ "" && c.sha256 stored ≠ ref.cipherSHA256

def importOn (keys : KeySource) (workloadID : String) (ref : ChunkRef) (bytes : Bytes) :
    Program Files MirrorError Unit :=
  Program.mapError .chunk do
    let _ ← importChunkResult c.toChunkPrimitives keys quietImport workloadID ref bytes
    pure ()

def downloadRef (remote : Remote) (keys : KeySource) (workloadID : String) (ref : ChunkRef) :
    Program Files MirrorError Unit := do
  let files ← Program.get
  if ← Program.liftExcept ((missing c files ref).mapError .chunk) then
    match remote.get c (chunkObjectKey ref) with
    | .error e => Program.throw (.store e)
    | .ok (_, content) => importOn c keys workloadID ref content
  else importOn c keys workloadID ref []

def downloadRefs (remote : Remote) (keys : KeySource) (workloadID : String) :
    List ChunkRef → Program Files MirrorError Unit
  | [] => pure ()
  | ref :: rest => do
    downloadRef c remote keys workloadID ref
    downloadRefs remote keys workloadID rest

def fetchManifest (remote : Remote) (machine : Machine) (checkpointID : String) :
    Except MirrorError CheckpointManifest := do
  if checkpointID = "" then throw (.other "checkpoint id is required")
  let key := checkpointManifestKey checkpointID
  let head ← (remote.head c key).mapError .store
  if head.size < 0 ∨ head.size > maxEncryptedManifestBytes then
    throw (.other "mirrored checkpoint manifest exceeds size limit")
  let (info, encoded) ← (remote.get c key).mapError .store
  verifyMirroredObject c info encoded.length (c.sha256 encoded)
  verifyMirroredObject c head encoded.length (c.sha256 encoded)
  let (m, _) ←
    (decodeEncryptedManifest c.toCodec machine.keys checkpointID encoded).mapError .repository
  let signer := m.security.signerMachineID
  if signer = "" ∨ machine.trusted signer = false then throw (.untrustedSigner signer)
  return m

def download (remote : Remote) (nonce : Nonce) (checkpointID : String) :
    Program Machine MirrorError CheckpointManifest := do
  let machine ← Program.get
  let m ← Program.liftExcept (fetchManifest c remote machine checkpointID)
  Program.zoom Machine.files (fun files machine => { machine with files })
    (downloadRefs c remote machine.keys m.workload.id (uniqueChunkRefs m.assets))
  let machine ← Program.get
  Program.modify fun _ => (machine.save c nonce m).1
  Program.liftExcept ((machine.save c nonce m).2.mapError .repository)
  pure m

end Mirror

end Shiftgate.Checkpoint.Mirrors
