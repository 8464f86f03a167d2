import Shiftgate.Chunkstore.Store
import Mathlib.Data.List.Sort

/-! Assets in the chunk store: `PutAsset` and `RestoreAsset`. Where a file of a chunk's name exists,
or another writer links it first, the reference is made from the bytes of that file. -/

namespace Shiftgate.Chunkstore

open Library Securestore

structure AssetChunk extends ChunkRef where
  sequence : Int
  compression : Compression
  encryption : String
  deriving DecidableEq, Repr, Countable

structure AssetManifest where
  name : String
  mediaType : String
  plainSize : Int
  storedSize : Int
  sha256 : String
  chunks : List AssetChunk
  required : Bool
  restoreOrder : Int
  deriving DecidableEq, Repr, Countable

structure PutResult where
  asset : AssetManifest
  deduplicatedBytes : Int

structure ChunkSize where
  val : Nat
  min_le : 64 * 2 ^ 10 ≤ val
  le_max : val ≤ 64 * 2 ^ 20

def tagSize : Nat := 16

/-- The zstd encoder: a frame starts with its magic, exceeds the chunk by less than a mebibyte, and
decodes to the chunk. -/
structure AssetPrimitives extends ChunkPrimitives where
  zstdEncode : Bytes → Bytes
  gcmSeal_length : ∀ key nonce plaintext aad,
    (gcmSeal key nonce plaintext aad).length = plaintext.length + tagSize
  zstd_magic : ∀ plaintext, zstdFrameMagic.isPrefixOf (zstdEncode plaintext)
  zstd_length : ∀ plaintext, plaintext.length ≤ maxPlainChunk →
    (zstdEncode plaintext).length ≤ plaintext.length + 2 ^ 20
  zstd_decode : ∀ plaintext, plaintext.length ≤ maxPlainChunk →
    zstdDecode (zstdEncode plaintext) = some plaintext

structure PutFaults where
  context : Fault
  read : Fault
  stat : Fault
  mkdir : Fault
  createTemp : Fault
  chmod : Fault
  write : Fault
  sync : Fault
  close : Fault
  link : Fault

section Put

variable (p : AssetPrimitives) (keys : KeySource)

def freshRef (contentAddress : String) (keyVersion : UInt32) (sequence : Nat)
    (plaintext encoded : Bytes) : AssetChunk where
  address := contentAddress
  keyVersion := keyVersion
  plainSize := plaintext.length
  storedSize := encoded.length
  cipherSHA256 := p.sha256 encoded
  plainSHA256 := p.sha256 plaintext
  sequence := sequence
  compression := .zstd
  encryption := "AES-256-GCM"

def sealChunk (nonce : Nonce) (workloadID : String) (keyVersion : UInt32) (dataKey : Bytes)
    (sequence : Nat) (plaintext : Bytes) : Except String (Bytes × AssetChunk) := do
  let contentAddress ← address p.toChunkPrimitives dataKey workloadID plaintext
  let compressed := p.zstdEncode plaintext
  let aad := chunkAAD workloadID contentAddress keyVersion plaintext.length
  let ciphertext ← keyMessage
    (encrypt p.toPrimitives dataKey workloadID "checkpoint-chunk" nonce compressed aad)
  let encoded ← encodeChunk keyVersion plaintext.length nonce.val ciphertext
  return (encoded, freshRef p contentAddress keyVersion sequence plaintext encoded)

def collision (ref : AssetChunk) : String :=
  "content address collision or corrupt existing chunk " ++ ref.address

def existingRef (files : Files) (workloadID : String) (reference : AssetChunk)
    (expected : Bytes) : Except String AssetChunk := do
  let path ← chunkPath reference.toChunkRef
  match files.get path with
  | none => throw "no such file or directory"
  | some encoded =>
    let resolved :=
      { reference with storedSize := encoded.length, cipherSHA256 := p.sha256 encoded }
    match verifyChunk p.toChunkPrimitives keys files workloadID resolved.toChunkRef with
    | .error e => throw ("verify concurrent chunk " ++ reference.address ++ ": " ++ e)
    | .ok (plaintext, codec) =>
      if plaintext ≠ expected then throw (collision reference)
      else return { resolved with compression := codec }

/-- Another writer may link the name between look and link. -/
def raced (race : Option Bytes) (path : String) (files : Files) : Files :=
  match race, files.get path with
  | some encoded, none => files.set path encoded
  | _, _ => files

def linkChunk (faults : PutFaults) (race : Option Bytes) (workloadID : String) (ref : AssetChunk)
    (plaintext encoded : Bytes) (path : String) : Program Files String (AssetChunk × Bool) := do
  Program.effect faults.mkdir "mkdir" id
  Program.effect faults.createTemp "create temp" id
  Program.effect faults.chmod "chmod" id
  Program.effect faults.write "write" id
  Program.effect faults.sync "sync" id
  Program.effect faults.close "close" id
  Program.modify (raced race path)
  let files ← Program.get
  match files.get path with
  | some _ => do
    Program.effect faults.link "link" id
    -- The link reports that the name exists.
    let existing ← Program.liftExcept (existingRef p keys files workloadID ref plaintext)
    return (existing, true)
  | none => do
    Program.effect faults.link "link" (·.set path encoded)
    return (ref, false)

def putChunk (faults : PutFaults) (nonce : Nonce) (race : Option Bytes) (workloadID : String)
    (keyVersion : UInt32) (dataKey : Bytes) (sequence : Nat) (plaintext : Bytes) :
    Program Files String (AssetChunk × Bool) := do
  let (encoded, ref) ← Program.liftExcept
    (sealChunk p nonce workloadID keyVersion dataKey sequence plaintext)
  let path ← Program.liftExcept (chunkPath ref.toChunkRef)
  Program.effect faults.stat "stat" id
  let files ← Program.get
  match files.get path with
  | none => linkChunk p keys faults race workloadID ref plaintext encoded path
  | some stored =>
    if stored.length = encoded.length then
      -- The file is resolved as a lost race is, with every failure reported alike.
      match existingRef p keys files workloadID ref plaintext with
      | .ok existing => return (existing, true)
      | .error _ => Program.throw (collision ref)
    else linkChunk p keys faults race workloadID ref plaintext encoded path

structure PutWorld where
  faults : Nat → PutFaults
  nonces : Nat → Nonce
  races : Nat → Option Bytes

def AssetManifest.add (asset : AssetManifest) (ref : AssetChunk) : AssetManifest :=
  { asset with chunks := asset.chunks ++ [ref], plainSize := asset.plainSize + ref.plainSize,
               storedSize := asset.storedSize + ref.storedSize }

/-- The loop of `PutAsset`; `whole` is what the hash of the asset has read. A read that does not
fill the buffer is the last one. -/
def putChunks (size : ChunkSize) (world : PutWorld) (workloadID : String) (keyVersion : UInt32)
    (dataKey : Bytes) (asset : AssetManifest) (whole : Bytes) (deduplicated : Int)
    (sequence : Nat) (reader : Bytes) : Program Files String PutResult := do
  Program.effect (world.faults sequence).context "context canceled" id
  Program.effect (world.faults sequence).read ("read asset " ++ asset.name) id
  let plaintext := reader.take size.val
  let finish (asset : AssetManifest) (whole : Bytes) (deduplicated : Int) : PutResult :=
    { asset := { asset with sha256 := p.sha256 whole }, deduplicatedBytes := deduplicated }
  if _h : reader = [] then return finish asset whole deduplicated
  else do
    let (ref, existed) ← Program.mapError
      (("store asset " ++ asset.name ++ " chunk " ++ toString sequence ++ ": ") ++ ·)
      (putChunk p keys (world.faults sequence) (world.nonces sequence) (world.races sequence)
        workloadID keyVersion dataKey sequence plaintext)
    let asset := asset.add ref
    let whole := whole ++ plaintext
    let deduplicated := if existed then deduplicated + ref.plainSize else deduplicated
    if plaintext.length < size.val then return finish asset whole deduplicated
    else
      putChunks size world workloadID keyVersion dataKey asset whole deduplicated (sequence + 1)
        (reader.drop size.val)
termination_by reader.length
decreasing_by
  have hsize : 0 < size.val := Nat.lt_of_lt_of_le (by decide) size.min_le
  have hreader : 0 < reader.length := List.length_pos_iff.mpr _h
  rw [List.length_drop]
  omega

end Put

structure Shelf where
  files : Files
  keys : Securestore.Store

def keyErrorMessage : KeyError → String
  | .notExist message => message
  | .other message => message

structure KeyWorld where
  fault : Fault
  fresh : Key
  nonce : Nonce

def putAsset (p : AssetPrimitives) (size : ChunkSize) (keyWorld : KeyWorld) (world : PutWorld)
    (workloadID name mediaType : String) (reader : Bytes) (required : Bool) (restoreOrder : Int) :
    Program Shelf String PutResult :=
  if workloadID = "" ∨ name = "" then Program.throw "workload id and asset name are required"
  else do
    let (keyVersion, dataKey) ← Program.zoom Shelf.keys (fun keys s => { s with keys })
      (Program.mapError keyErrorMessage
        (getOrCreateWorkloadKey p.toPrimitives keyWorld.fault keyWorld.fresh keyWorld.nonce
          workloadID))
    let s ← Program.get
    Program.zoom Shelf.files (fun files s => { s with files })
      (putChunks p (workloadKey p.toPrimitives s.keys) size world workloadID keyVersion dataKey
        { name, mediaType, plainSize := 0, storedSize := 0, sha256 := "", chunks := [], required,
          restoreOrder } [] 0 0 reader)

section Restore

variable (p : ChunkPrimitives) (keys : KeySource) (files : Files)

def restoreChunks (workloadID name : String) (expected : Nat) :
    List AssetChunk → Program Bytes String Bytes
  | [] => return []
  | ref :: rest =>
    if ref.sequence ≠ expected then
      Program.throw ("asset " ++ name ++ " has non-contiguous chunk sequence")
    else do
      let (plaintext, _) ← Program.mapError
        (("restore asset " ++ name ++ " chunk " ++ toString ref.sequence ++ ": ") ++ ·)
        (Program.liftExcept (verifyChunk p keys files workloadID ref.toChunkRef))
      Program.modify (· ++ plaintext)
      let later ← restoreChunks workloadID name (expected + 1) rest
      return plaintext ++ later

def restoreAsset (workloadID : String) (asset : AssetManifest) : Program Bytes String Unit := do
  let ordered := asset.chunks.insertionSort (·.sequence ≤ ·.sequence)
  let whole ← restoreChunks p keys files workloadID asset.name 0 ordered
  if (whole.length : Int) ≠ asset.plainSize then
    Program.throw ("asset " ++ asset.name ++ " size mismatch: got " ++ toString whole.length ++
      " want " ++ toString asset.plainSize)
  else if p.sha256 whole ≠ asset.sha256 then
    Program.throw ("asset " ++ asset.name ++ " digest mismatch")
  else return ()

end Restore

theorem restoreChunks_congr {p : ChunkPrimitives} {keys keys' : KeySource} {files files' : Files}
    {workloadID name : String} {chunks : List AssetChunk} {expected : Nat}
    (hsame : ∀ chunk ∈ chunks, verifyChunk p keys' files' workloadID chunk.toChunkRef =
      verifyChunk p keys files workloadID chunk.toChunkRef) :
    restoreChunks p keys' files' workloadID name expected chunks =
      restoreChunks p keys files workloadID name expected chunks := by
  induction chunks generalizing expected with
  | nil => rfl
  | cons chunk rest ih =>
    obtain ⟨hchunk, hrest⟩ := List.forall_mem_cons.mp hsame
    simp only [restoreChunks, hchunk, ih hrest]

end Shiftgate.Chunkstore
