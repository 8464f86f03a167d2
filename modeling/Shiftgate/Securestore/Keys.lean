import Shiftgate.Library.FileTable
import Shiftgate.Library.Program
import Mathlib.Data.List.Sort

/-! The key manager of `internal/securestore/keys.go`: a keyring of master keys, one file of wrapped
data keys for each workload, and the calls that create, import, rotate and read keys. A call acts on
the files and on the manager's copy of the keyring. A record holds the bytes its base64 encodes. -/

namespace Shiftgate.Securestore

open Library

abbrev Bytes := List UInt8

def keySize : Nat := 32

def nonceSize : Nat := 12

abbrev Key := { bytes : Bytes // bytes.length = keySize }

abbrev Nonce := { bytes : Bytes // bytes.length = nonceSize }

/-- HKDF, AES-GCM, and the hex SHA-256 digest that names a workload's file. Opening what was sealed
under the same key, nonce and associated data returns the plaintext. -/
structure Primitives where
  hkdf : Bytes → String → String → Key
  gcmSeal : Key → Nonce → Bytes → String → Bytes
  gcmOpen : Key → Nonce → Bytes → String → Option Bytes
  digest : String → String
  gcmOpen_gcmSeal : ∀ key nonce plaintext aad,
    gcmOpen key nonce (gcmSeal key nonce plaintext aad) aad = some plaintext

inductive KeyError where
  | notExist (message : String)
  | other (message : String)
  deriving DecidableEq

inductive Protection where
  | raw
  | keyfile (nonce : Nonce)
  | unsupported (name : String)
  deriving DecidableEq

structure MasterKeyRecord where
  version : UInt32
  key : Bytes
  protection : Protection
  retiredAt : Option Nat
  deriving DecidableEq

structure KeyringFile where
  formatVersion : Nat
  activeVersion : UInt32
  keys : List MasterKeyRecord
  deriving DecidableEq

structure WrappedKeyRecord where
  formatVersion : Nat
  workloadID : String
  keyVersion : UInt32
  wrappedBy : UInt32
  nonce : Nonce
  ciphertext : Bytes
  deriving DecidableEq

structure Disk where
  keyring : Option KeyringFile
  workloadKeys : FileTable (List WrappedKeyRecord)
  deriving DecidableEq

def Disk.setKeyring (disk : Disk) (keyring : KeyringFile) : Disk :=
  { disk with keyring := some keyring }

def Disk.setWorkloadKeys (disk : Disk) (path : String) (records : List WrappedKeyRecord) : Disk :=
  { disk with workloadKeys := disk.workloadKeys.set path records }

/-- `wrapKey` is set exactly when the keyring has a key file (`protected` in the source). -/
structure Manager where
  keyring : KeyringFile
  wrapKey : Option Key
  deriving DecidableEq

structure Store where
  disk : Disk
  manager : Manager

section Calls

variable (c : Primitives)

def derive (dataKey : Bytes) (workloadID purpose : String) : Except KeyError Key :=
  if dataKey.length ≠ keySize then .error (.other "invalid data key length")
  else .ok (c.hkdf dataKey workloadID ("shift/v1/" ++ purpose))

def encrypt (dataKey : Bytes) (workloadID purpose : String) (nonce : Nonce) (plaintext : Bytes)
    (aad : String) : Except KeyError Bytes := do
  let aeadKey ← derive c dataKey workloadID purpose
  return c.gcmSeal aeadKey nonce plaintext aad

def decrypt (dataKey : Bytes) (workloadID purpose : String) (nonce : Nonce) (ciphertext : Bytes)
    (aad : String) : Except KeyError Bytes := do
  let aeadKey ← derive c dataKey workloadID purpose
  match c.gcmOpen aeadKey nonce ciphertext aad with
  | some plaintext => return plaintext
  | none => throw (.other "authenticated decryption failed")

def masterKeyAad (version : UInt32) : String := "shift-master-key-v1\n" ++ toString version

def workloadKeyAad (workloadID : String) (version wrappedBy : UInt32) : String :=
  "shift-workload-key-v1\n" ++ workloadID ++ "\n" ++ toString version ++ "\n" ++ toString wrappedBy

def sealRecord (wrapKey : Option Key) (version : UInt32) (nonce : Nonce) (key : Key) :
    Except KeyError MasterKeyRecord :=
  match wrapKey with
  | none => .ok { version, key := key.val, protection := .raw, retiredAt := none }
  | some wrap => do
    let ciphertext ←
      encrypt c wrap.val "master-keyring" "wrap-master-key" nonce key.val (masterKeyAad version)
    return { version, key := ciphertext, protection := .keyfile nonce, retiredAt := none }

def openRecord (wrapKey : Option Key) (record : MasterKeyRecord) : Except KeyError Bytes :=
  match record.protection with
  | .raw =>
    if record.key.length ≠ keySize then .error (.other "invalid master key record")
    else .ok record.key
  | .keyfile nonce =>
    match wrapKey with
    | none => .error (.other ("master key version " ++ toString record.version ++
        " is sealed under an external key file; configure SHIFT_MASTER_KEY_FILE"))
    | some wrap =>
      decrypt c wrap.val "master-keyring" "wrap-master-key" nonce record.key
        (masterKeyAad record.version)
  | .unsupported name => .error (.other ("unsupported master key protection " ++ name))

def masterKey (m : Manager) (version : UInt32) : Except KeyError Bytes :=
  match m.keyring.keys.find? (·.version == version) with
  | some record => openRecord c m.wrapKey record
  | none => .error (.other ("master key version " ++ toString version ++ " not found"))

def unwrap (m : Manager) (record : WrappedKeyRecord) : Except KeyError Bytes := do
  let master ← masterKey c m record.wrappedBy
  decrypt c master record.workloadID "wrap-workload-key" record.nonce record.ciphertext
    (workloadKeyAad record.workloadID record.keyVersion record.wrappedBy)

def workloadPath (workloadID : String) : String := c.digest workloadID ++ ".json"

def loadWorkloadRecords (disk : Disk) (workloadID : String) :
    Except KeyError (List WrappedKeyRecord) :=
  match disk.workloadKeys.get (workloadPath c workloadID) with
  | none => .error (.notExist "no such file or directory")
  | some records =>
    if records.all (fun r => r.formatVersion == 1 && r.workloadID == workloadID) then .ok records
    else .error (.other "invalid workload key record")

def loadOrEmpty (disk : Disk) (workloadID : String) : Except KeyError (List WrappedKeyRecord) :=
  match loadWorkloadRecords c disk workloadID with
  | .error (.notExist _) => .ok []
  | r => r

def writeKeyring (fault : Fault) : Program Store KeyError Unit :=
  Program.effect fault (.other "write master-keyring.json") fun s =>
    { s with disk := s.disk.setKeyring s.manager.keyring }

def writeWorkloadFile (fault : Fault) (path : String) (records : List WrappedKeyRecord) :
    Program Store KeyError Unit :=
  Program.effect fault (.other "write workload keys") fun s =>
    { s with disk := s.disk.setWorkloadKeys path records }

def wrapRecord (m : Manager) (workloadID : String) (version : UInt32) (nonce : Nonce)
    (key : Bytes) : Except KeyError WrappedKeyRecord := do
  let masterVersion := m.keyring.activeVersion
  let master ← masterKey c m masterVersion
  let ciphertext ← encrypt c master workloadID "wrap-workload-key" nonce key
    (workloadKeyAad workloadID version masterVersion)
  return { formatVersion := 1, workloadID, keyVersion := version, wrappedBy := masterVersion,
           nonce, ciphertext }

def storeWorkloadKey (fault : Fault) (workloadID : String) (version : UInt32) (nonce : Nonce)
    (key : Bytes) (records : List WrappedKeyRecord) : Program Store KeyError Unit := do
  let s ← Program.get
  let record ← Program.liftExcept (wrapRecord c s.manager workloadID version nonce key)
  writeWorkloadFile fault (workloadPath c workloadID)
    ((records ++ [record]).insertionSort (·.keyVersion ≤ ·.keyVersion))

def getOrCreateWorkloadKey (fault : Fault) (fresh : Key) (nonce : Nonce) (workloadID : String) :
    Program Store KeyError (UInt32 × Bytes) := do
  let s ← Program.get
  let records ← Program.liftExcept (loadOrEmpty c s.disk workloadID)
  match records.getLast? with
  | some record => do
    let key ← Program.liftExcept (unwrap c s.manager record)
    return (record.keyVersion, key)
  | none => do
    storeWorkloadKey c fault workloadID 1 nonce fresh.val []
    return (1, fresh.val)

def workloadKey (s : Store) (workloadID : String) (version : UInt32) : Except KeyError Bytes := do
  let records ← loadWorkloadRecords c s.disk workloadID
  match records.find? (·.keyVersion == version) with
  | some record => unwrap c s.manager record
  | none => throw (.notExist ("workload key " ++ workloadID ++ " version " ++ toString version))

def importWorkloadKey (fault : Fault) (nonce : Nonce) (workloadID : String) (version : UInt32)
    (key : Bytes) : Program Store KeyError Unit :=
  if key.length ≠ keySize then Program.throw (.other "workload data key must be 256 bits")
  else do
    let s ← Program.get
    let records ← Program.liftExcept (loadOrEmpty c s.disk workloadID)
    match records.find? (·.keyVersion == version) with
    | some record => do
      let existing ← Program.liftExcept (unwrap c s.manager record)
      if existing ≠ key then
        Program.throw (.other "a different key already exists for this workload and version")
      else pure ()
    | none => storeWorkloadKey c fault workloadID version nonce key records

def nextKeyVersion (records : List WrappedKeyRecord) : UInt32 :=
  match records.getLast? with
  | some record => record.keyVersion + 1
  | none => 1

def rotateWorkloadKey (fault : Fault) (fresh : Key) (nonce : Nonce) (workloadID : String) :
    Program Store KeyError (UInt32 × Bytes) := do
  let s ← Program.get
  let records ← Program.liftExcept (loadOrEmpty c s.disk workloadID)
  let version := nextKeyVersion records
  storeWorkloadKey c fault workloadID version nonce fresh.val records
  return (version, fresh.val)

def nextMasterVersion (keyring : KeyringFile) : UInt32 :=
  keyring.keys.foldl (fun newVersion record =>
    if record.version ≥ newVersion then record.version + 1 else newVersion) keyring.activeVersion

def rewrapRecords (m : Manager) (nonceFor : WrappedKeyRecord → Nonce) :
    List WrappedKeyRecord → Except KeyError (List WrappedKeyRecord)
  | [] => .ok []
  | record :: rest => do
    let key ← unwrap c m record
    let fresh ← wrapRecord c m record.workloadID record.keyVersion (nonceFor record) key
    let others ← rewrapRecords m nonceFor rest
    return { record with wrappedBy := fresh.wrappedBy, nonce := fresh.nonce,
                         ciphertext := fresh.ciphertext } :: others

def rewrapWorkloadFile (fault : Fault) (nonceFor : WrappedKeyRecord → Nonce) (path : String) :
    Program Store KeyError Unit := do
  let s ← Program.get
  match s.disk.workloadKeys.get path with
  | none => Program.throw (.notExist "no such file or directory")
  | some records => do
    let rewrapped ← Program.liftExcept (rewrapRecords c s.manager nonceFor records)
    writeWorkloadFile fault path rewrapped

def rewrapFiles (faults : String → Fault) (nonceFor : WrappedKeyRecord → Nonce) :
    List String → Program Store KeyError Unit
  | [] => pure ()
  | path :: rest => do
    rewrapWorkloadFile c (faults path) nonceFor path
    rewrapFiles faults nonceFor rest

def retireRecord (now : Nat) (version : UInt32) (record : MasterKeyRecord) : MasterKeyRecord :=
  if record.version ≠ version ∧ record.retiredAt = none then { record with retiredAt := some now }
  else record

def retireOthers (now : Nat) (version : UInt32) (keyring : KeyringFile) : KeyringFile :=
  { keyring with keys := keyring.keys.map (retireRecord now version) }

structure RotateFaults where
  activate : Fault
  rewrap : String → Fault
  retire : Fault

def rotateMasterKey (faults : RotateFaults) (fresh : Key) (nonce : Nonce)
    (nonceFor : WrappedKeyRecord → Nonce) (now : Nat) : Program Store KeyError UInt32 := do
  let s ← Program.get
  let newVersion := nextMasterVersion s.manager.keyring
  let record ← Program.liftExcept (sealRecord c s.manager.wrapKey newVersion nonce fresh)
  Program.modify fun s => { s with manager := { s.manager with
    keyring := { s.manager.keyring with
      activeVersion := newVersion, keys := s.manager.keyring.keys ++ [record] } } }
  writeKeyring faults.activate
  let written ← Program.get
  rewrapFiles c faults.rewrap nonceFor written.disk.workloadKeys.names
  Program.modify fun s => { s with manager := { s.manager with
    keyring := retireOthers now newVersion s.manager.keyring } }
  writeKeyring faults.retire
  return newVersion

def checkKeyring (wrapKey : Option Key) (keyring : KeyringFile) : Except KeyError Manager :=
  if keyring.formatVersion ≠ 1 ∨ keyring.keys = [] then .error (.other "invalid master keyring")
  else if wrapKey = none ∧ keyring.keys.any (·.protection ≠ .raw) then
    .error (.other ("master keyring is sealed under an external key file; " ++
      "set SHIFT_MASTER_KEY_FILE to open it"))
  else .ok { keyring, wrapKey }

def mintKeyring (wrapKey : Option Key) (fresh : Key) (nonce : Nonce) :
    Except KeyError KeyringFile := do
  let record ← sealRecord c wrapKey 1 nonce fresh
  return { formatVersion := 1, activeVersion := 1, keys := [record] }

def openManager (fault : Fault) (wrapKey : Option Key) (mint : Bool) (fresh : Key) (nonce : Nonce) :
    Program Disk KeyError Manager := do
  let disk ← Program.get
  match disk.keyring with
  | some keyring => Program.liftExcept (checkKeyring wrapKey keyring)
  | none =>
    if mint then do
      let keyring ← Program.liftExcept (mintKeyring c wrapKey fresh nonce)
      Program.effect fault (.other "write master-keyring.json") fun d =>
        d.setKeyring keyring
      Program.liftExcept (checkKeyring wrapKey keyring)
    else
      Program.throw (.other
        "master keyring is missing; refusing to mint key material over a damaged store")

end Calls

end Shiftgate.Securestore
