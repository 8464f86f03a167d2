import Shiftgate.Securestore.Keys

/-! The chunk store of `internal/chunkstore/store.go`: the frame of a stored chunk, its full
verification against a reference, and the import of an uploaded chunk. The cryptography and the two
decoders are parameters. -/

namespace Shiftgate.Chunkstore

open Library Securestore

def magic : String := "SHFTCHK1"

def fileFormatVersion : Nat := 1

def maxEncodedChunk : Nat := 96 * 2 ^ 20

def maxPlainChunk : Nat := 64 * 2 ^ 20

instance countableChar : Countable Char :=
  Function.Injective.countable (f := Char.toNat) fun _ _ h => Char.ext (UInt32.toNat_inj.mp h)

instance countableString : Countable String :=
  Function.Injective.countable (f := String.toList) fun _ _ h => String.toList_injective h

instance countableUInt8 : Countable UInt8 :=
  Function.Injective.countable (f := UInt8.toNat) fun _ _ h => UInt8.toNat_inj.mp h

instance countableUInt32 : Countable UInt32 :=
  Function.Injective.countable (f := UInt32.toNat) fun _ _ h => UInt32.toNat_inj.mp h

structure ChunkRef where
  address : String
  keyVersion : UInt32
  plainSize : Int
  storedSize : Int
  cipherSHA256 : String
  plainSHA256 : String
  deriving DecidableEq, Repr, Countable

inductive Compression where
  | zstd
  | gzip
  deriving DecidableEq, Repr, Countable

/-- The hashes (in hex) and the decoders. `gzipRead` reads at most the given number of bytes. -/
structure ChunkPrimitives extends Primitives where
  sha256 : Bytes → String
  hmac : Key → Bytes → String
  zstdDecode : Bytes → Option Bytes
  gzipRead : Bytes → Nat → Option Bytes

def bigEndian : Nat → Nat → Bytes
  | 0, _ => []
  | width + 1, n => UInt8.ofNat (n / 256 ^ width) :: bigEndian width n

def ofBigEndian (bytes : Bytes) : Nat := bytes.foldl (fun n b => n * 256 + b.toNat) 0

def encodeChunk (keyVersion : UInt32) (plainSize : Nat) (nonce ciphertext : Bytes) :
    Except String Bytes :=
  if nonce.length > 255 ∨ ciphertext.length > maxEncodedChunk then
    .error "chunk encoding limit exceeded"
  else
    .ok (magic.toUTF8.toList ++ bigEndian 2 fileFormatVersion ++ bigEndian 4 keyVersion.toNat ++
      bigEndian 8 plainSize ++ bigEndian 2 nonce.length ++ bigEndian 8 ciphertext.length ++
      nonce ++ ciphertext)

structure Frame where
  keyVersion : UInt32
  plainSize : Nat
  nonce : Bytes
  ciphertext : Bytes
  deriving DecidableEq

def readFull (n : Nat) (err : String) (bytes : Bytes) : Except String (Bytes × Bytes) :=
  if bytes.length < n then .error err else .ok (bytes.take n, bytes.drop n)

/-- A size that is negative in the source is out of range here too. -/
def decodeChunk (encoded : Bytes) : Except String Frame := do
  let (magicBytes, rest) ← readFull 8 "invalid chunk magic" encoded
  if magicBytes ≠ magic.toUTF8.toList then throw "invalid chunk magic"
  let (format, rest) ← readFull 2 "unsupported chunk format" rest
  if ofBigEndian format ≠ fileFormatVersion then throw "unsupported chunk format"
  let (keyVersion, rest) ← readFull 4 "unexpected EOF" rest
  let (plainSize, rest) ← readFull 8 "unexpected EOF" rest
  if ofBigEndian plainSize < 1 ∨ ofBigEndian plainSize > maxPlainChunk then
    throw "chunk plain size out of range"
  let (nonceLength, rest) ← readFull 2 "unexpected EOF" rest
  let (ciphertextLength, rest) ← readFull 8 "unexpected EOF" rest
  if ofBigEndian nonceLength = 0 ∨ ofBigEndian ciphertextLength > maxEncodedChunk ∨
      rest.length ≠ ofBigEndian nonceLength + ofBigEndian ciphertextLength then
    throw "invalid chunk lengths"
  return { keyVersion := UInt32.ofNat (ofBigEndian keyVersion)
           plainSize := ofBigEndian plainSize
           nonce := rest.take (ofBigEndian nonceLength)
           ciphertext := rest.drop (ofBigEndian nonceLength) }

def zstdFrameMagic : Bytes := [0x28, 0xb5, 0x2f, 0xfd]

def gzipFrameMagic : Bytes := [0x1f, 0x8b]

section Verify

variable (p : ChunkPrimitives)

def decompress (compressed : Bytes) (expectedSize : Nat) : Except String (Bytes × Compression) :=
  if expectedSize < 1 ∨ expectedSize > maxPlainChunk then
    .error "declared chunk size out of range"
  else if zstdFrameMagic.isPrefixOf compressed then
    match p.zstdDecode compressed with
    | none => .error "zstd: corrupt frame"
    | some plaintext =>
      if plaintext.length ≠ expectedSize then .error "decompressed chunk size mismatch"
      else .ok (plaintext, .zstd)
  else if gzipFrameMagic.isPrefixOf compressed then
    match p.gzipRead compressed (expectedSize + 1) with
    | none => .error "gzip: invalid stream"
    | some plaintext =>
      if plaintext.length ≠ expectedSize then .error "decompressed chunk size mismatch"
      else .ok (plaintext, .gzip)
  else .error "unrecognized chunk compression"

def keyMessage {α : Type} : Except KeyError α → Except String α
  | .ok a => .ok a
  | .error (.notExist message) => .error message
  | .error (.other message) => .error message

def address (dataKey : Bytes) (workloadID : String) (plaintext : Bytes) : Except String String := do
  let addressKey ← keyMessage (derive p.toPrimitives dataKey workloadID "content-address")
  return p.hmac addressKey plaintext

def decryptChunk (dataKey : Bytes) (workloadID : String) (nonce ciphertext : Bytes)
    (aad : String) : Except String Bytes := do
  let _ ← keyMessage (derive p.toPrimitives dataKey workloadID "checkpoint-chunk")
  if h : nonce.length = nonceSize then
    keyMessage (decrypt p.toPrimitives dataKey workloadID "checkpoint-chunk" ⟨nonce, h⟩ ciphertext
      aad)
  else throw "invalid nonce size"

def isHexDigit (ch : Char) : Bool := "0123456789abcdef".toList.contains ch

def chunkPath (ref : ChunkRef) : Except String String :=
  if ref.address.length ≠ 64 ∨ ¬ ref.address.toList.all isHexDigit then
    .error "invalid chunk address"
  else
    .ok ("chunks/v" ++ toString ref.keyVersion ++ "/" ++
      String.ofList (ref.address.toList.take 2) ++ "/" ++ ref.address ++ ".chunk")

def chunkAAD (workloadID address : String) (keyVersion : UInt32) (plainSize : Nat) : String :=
  "shift-checkpoint-chunk-v1\n" ++ workloadID ++ "\n" ++ address ++ "\n" ++ toString keyVersion ++
    "\n" ++ toString plainSize

abbrev Files := FileTable Bytes

abbrev KeySource := String → UInt32 → Except KeyError Bytes

variable (keys : KeySource)

def verifyBytes (workloadID : String) (ref : ChunkRef) (encoded : Bytes) :
    Except String (Bytes × Compression) := do
  if (encoded.length : Int) ≠ ref.storedSize ∨ encoded.length > maxEncodedChunk then
    throw "invalid encoded chunk size"
  if p.sha256 encoded ≠ ref.cipherSHA256 then throw "ciphertext digest mismatch"
  let frame ← decodeChunk encoded
  if frame.keyVersion ≠ ref.keyVersion ∨ (frame.plainSize : Int) ≠ ref.plainSize then
    throw "chunk header does not match manifest"
  let dataKey ← keyMessage (keys workloadID frame.keyVersion)
  let compressed ← decryptChunk p dataKey workloadID frame.nonce frame.ciphertext
    (chunkAAD workloadID ref.address frame.keyVersion frame.plainSize)
  let (plaintext, codec) ← decompress p compressed frame.plainSize
  if p.sha256 plaintext ≠ ref.plainSHA256 then throw "plaintext digest mismatch"
  match address p dataKey workloadID plaintext with
  | .ok found => if found ≠ ref.address then throw "content address mismatch"
                 else return (plaintext, codec)
  | .error _ => throw "content address mismatch"

def sizesInRange (ref : ChunkRef) : Bool :=
  1 ≤ ref.storedSize && ref.storedSize ≤ maxEncodedChunk && 1 ≤ ref.plainSize &&
    ref.plainSize ≤ maxPlainChunk

def verifyChunk (files : Files) (workloadID : String) (ref : ChunkRef) :
    Except String (Bytes × Compression) := do
  if ref.plainSize < 1 ∨ ref.plainSize > maxPlainChunk then throw "chunk plain size out of range"
  if ref.storedSize < 1 ∨ ref.storedSize > maxEncodedChunk then
    throw "chunk stored size out of range"
  let path ← chunkPath ref
  match files.get path with
  | none => throw "no such file or directory"
  | some encoded => verifyBytes p keys workloadID ref encoded

def verifies (files : Files) (workloadID : String) (ref : ChunkRef) : Bool :=
  (verifyChunk p keys files workloadID ref).isOk

structure ImportFaults where
  stat : Fault
  mkdir : Fault
  createTemp : Fault
  chmod : Fault
  copy : Fault
  sync : Fault
  close : Fault
  link : Fault
  rename : Fault
  remove : Fault

def stageUpload (faults : ImportFaults) (ref : ChunkRef) (upload : Bytes) :
    Program Files String Unit := do
  Program.effect faults.mkdir "mkdir" id
  Program.effect faults.createTemp "create temp" id
  Program.effect faults.chmod "chmod" id
  Program.effect faults.copy "copy upload" id
  if (upload.length : Int) ≠ ref.storedSize then
    Program.throw ("chunk " ++ ref.address ++ " upload size mismatch")
  else if p.sha256 upload ≠ ref.cipherSHA256 then
    Program.throw ("chunk " ++ ref.address ++ " upload digest mismatch")
  else do
    Program.effect faults.sync "sync" id
    Program.effect faults.close "close" id

def verifyImported (faults : ImportFaults) (workloadID : String) (ref : ChunkRef) (path : String)
    (isNew : Bool) : Program Files String Bool := do
  let files ← Program.get
  match verifyChunk p keys files workloadID ref with
  | .ok _ => return isNew
  | .error e => do
    let _ ← Program.attempt (Program.effect faults.remove "remove" (·.erase path))
    Program.throw e

def importChunkResult (faults : ImportFaults) (workloadID : String) (ref : ChunkRef)
    (upload : Bytes) : Program Files String Bool :=
  if ref.storedSize < 1 ∨ ref.storedSize > maxEncodedChunk then
    Program.throw "chunk stored size out of range"
  else if ref.plainSize < 1 ∨ ref.plainSize > maxPlainChunk then
    Program.throw "chunk plain size out of range"
  else do
    let path ← Program.liftExcept (chunkPath ref)
    Program.effect faults.stat "stat" id
    let files ← Program.get
    match files.get path with
    | some stored =>
      if (stored.length : Int) = ref.storedSize ∧ verifies p keys files workloadID ref then
        return false
      else do
        stageUpload p faults ref upload
        Program.effect faults.link "link" id
        -- The link reports that the name exists.
        if verifies p keys files workloadID ref then return false
        else do
          Program.effect faults.rename "rename" (·.set path upload)
          verifyImported p keys faults workloadID ref path false
    | none => do
      stageUpload p faults ref upload
      Program.effect faults.link "link" (·.set path upload)
      verifyImported p keys faults workloadID ref path true

end Verify

end Shiftgate.Chunkstore
