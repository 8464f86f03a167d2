import Shiftgate.Chunkstore.Assets
import Mathlib.Data.Rat.Encodable

/-! Checkpoint manifests, the three places that build and sign one (`Service.Create`,
`LiveSession.Finalize`, `Forker.captureFork`), and the projection `Public`. What was observed around
the capture is given. -/

namespace Shiftgate.Checkpoint.Manifests

open Library Securestore Chunkstore

inductive PathMode where
  | readOnly
  | readWrite
  deriving DecidableEq, Countable

structure PathSpec where
  path : String
  mode : PathMode
  oneFS : Bool
  exclusions : List String
  deriving DecidableEq, Countable

structure PortSpec where
  protocol : String
  containerPort : Int
  hostPort : Int
  deriving DecidableEq, Countable

structure HealthCheckSpec where
  type : String
  address : String
  command : List String
  interval : Int
  timeout : Int
  retries : Int
  startDelay : Int
  deriving DecidableEq, Countable

structure GPUDevice where
  vendor : String
  model : String
  driverVersion : String
  memoryBytes : Nat
  computeCapability : String
  runtime : String
  checkpointRestore : Bool
  deviceFiles : List String
  deriving DecidableEq, Countable

/-- The processor count is a float64, in JSON the number it is. -/
structure ResourceRequirements where
  cpuCount : Rat
  memoryBytes : Nat
  storageBytes : Nat
  pids : Nat
  gpus : List GPUDevice
  deriving DecidableEq, Countable

inductive DevicePolicy where
  | rejectIncompatible
  | warnIncompatible
  deriving DecidableEq, Countable

inductive NetworkPolicy where
  | preserve
  | reconnect
  | drain
  deriving DecidableEq, Countable

def NetworkPolicy.text : NetworkPolicy → String
  | preserve => "preserve"
  | reconnect => "reconnect"
  | drain => "drain"

structure CheckpointPolicySpec where
  intervalSeconds : Int
  keepLast : Int
  deriving DecidableEq, Countable

inductive FencingProvider where
  | disabled
  | self
  | command
  deriving DecidableEq, Countable

structure FailoverPolicySpec where
  agentURL : String
  fencingProvider : FencingProvider
  fencingCommand : String
  machineID : String
  keepLast : Int
  deriving DecidableEq, Countable

structure Lineage where
  sourceWorkloadID : String
  sourceCheckpointID : String
  sourceRootPath : String
  generation : UInt32
  forkedAt : Int
  deriving DecidableEq, Countable

structure WorkloadSpec where
  id : String
  name : String
  command : List String
  rootPath : String
  workingDir : String
  environment : List (String × String)
  uid : Int
  gid : Int
  paths : List PathSpec
  ports : List PortSpec
  healthCheck : Option HealthCheckSpec
  resources : ResourceRequirements
  devicePolicy : DevicePolicy
  networkPolicy : NetworkPolicy
  checkpointPolicy : Option CheckpointPolicySpec
  failoverPolicy : Option FailoverPolicySpec
  lineage : Option Lineage
  createdAt : Int
  updatedAt : Int
  deriving DecidableEq, Countable

structure MachineIdentity where
  id : String
  name : String
  publicKeyPEM : String
  deriving DecidableEq, Countable

structure StorageDevice where
  mountpoint : String
  filesystem : String
  totalBytes : Nat
  availableBytes : Nat
  deriving DecidableEq, Countable

structure GPURuntime where
  name : String
  version : String
  toolkitPath : String
  installed : Bool
  deriving DecidableEq, Countable

structure CRIUCapabilities where
  installed : Bool
  version : String
  healthy : Bool
  features : List String
  errors : List String
  deriving DecidableEq, Countable

structure MachineCapabilities where
  machineID : String
  hostname : String
  os : String
  distribution : String
  kernel : String
  architecture : String
  cpus : Int
  memoryBytes : Nat
  storage : List StorageDevice
  gpus : List GPUDevice
  gpuRuntimes : List GPURuntime
  criu : CRIUCapabilities
  features : List (String × Bool)
  agentVersion : String
  observedAt : Int
  deriving DecidableEq, Countable

inductive StateClass where
  | portable
  | machineSpecific
  | external
  deriving DecidableEq, Countable

structure StateItem where
  name : String
  kind : StateClass
  adapter : String
  required : Bool
  description : String
  deriving DecidableEq, Countable

structure FileDependency where
  path : String
  kind : String
  insideRoot : Bool
  sizeBytes : Int
  deriving DecidableEq, Countable

structure FilesystemCapture where
  filesystem : String
  snapshot : String
  frozenCapture : Bool
  changedFiles : Int
  addedFiles : Int
  deletedFiles : Int
  deriving DecidableEq, Countable

def FilesystemCapture.zero : FilesystemCapture := ⟨"", "", false, 0, 0, 0⟩

inductive CheckpointKind where
  | full
  | incremental
  deriving DecidableEq, Countable

structure CheckpointEngineInfo where
  name : String
  version : String
  leaveRunning : Bool
  parentImages : Bool
  preCopy : Bool
  preCopyPasses : Int
  tcpState : Bool
  shellJob : Bool
  fileLocks : Bool
  deriving DecidableEq, Countable

structure SecurityEnvelope where
  keyVersion : UInt32
  manifestSignature : String
  signerMachineID : String
  algorithm : String
  deriving DecidableEq, Countable

structure CheckpointMetrics where
  startedAt : Int
  freezeStartedAt : Int
  completedAt : Int
  duration : Int
  plainBytes : Int
  storedBytes : Int
  deduplicatedBytes : Int
  chunkCount : Int
  deriving DecidableEq, Countable

structure CheckpointManifest where
  format : String
  formatVersion : String
  id : String
  parentID : String
  kind : CheckpointKind
  workload : WorkloadSpec
  sourceIdentity : MachineIdentity
  sourceMachine : MachineCapabilities
  createdAt : Int
  engine : CheckpointEngineInfo
  assets : List AssetManifest
  stateInventory : List StateItem
  filesystem : FilesystemCapture
  dependencies : List FileDependency
  deviceNeeds : List GPUDevice
  requiredBytes : Int
  metrics : CheckpointMetrics
  security : SecurityEnvelope
  manifestSHA256 : String
  compatibilityID : String
  deriving DecidableEq, Countable

def stateFormatName : String := "shift-state"

def stateFormatVersion : String := "1.0.0"

def redactArguments : List String → List String
  | [] => []
  | program :: arguments => program :: arguments.map fun _ => "<redacted>"

def WorkloadSpec.public (s : WorkloadSpec) : WorkloadSpec :=
  { s with
    environment := []
    paths := []
    healthCheck := none
    command := redactArguments s.command }

def publicChunk (chunk : AssetChunk) : AssetChunk := { chunk with plainSHA256 := "" }

def publicAsset (asset : AssetManifest) : AssetManifest :=
  { asset with chunks := asset.chunks.map publicChunk }

def CheckpointManifest.public (m : CheckpointManifest) : CheckpointManifest :=
  { m with workload := m.workload.public, assets := m.assets.map publicAsset }

/-- `encoding/json` on manifests, with documents `δ`: what was written is read back. -/
structure ManifestJSON (δ : Type) where
  marshal : CheckpointManifest → δ
  unmarshal : δ → Except String CheckpointManifest
  bytes : δ → Bytes
  unmarshal_marshal : ∀ m, unmarshal (marshal m) = .ok m

structure Identity where
  machine : MachineIdentity
  sign : String → String

structure Service (δ : Type) where
  primitives : AssetPrimitives
  json : ManifestJSON δ
  identity : Identity

variable {δ : Type}

def publicManifestJSON (json : ManifestJSON δ) (manifest : δ) : Except String δ := do
  let typed ← json.unmarshal manifest
  return json.marshal typed.public

def reconcileManifest (json : ManifestJSON δ) (manifest : CheckpointManifest) : δ :=
  json.marshal manifest.public

def signManifest (service : Service δ) (m : CheckpointManifest) : CheckpointManifest :=
  let signer := service.identity.machine
  let m := { m with
    sourceIdentity := signer
    security := { m.security with
      signerMachineID := signer.id, algorithm := "Ed25519+SHA-256", manifestSignature := "" }
    manifestSHA256 := "" }
  let digest := service.primitives.sha256 (service.json.bytes (service.json.marshal m))
  { m with
    manifestSHA256 := digest
    security := { m.security with manifestSignature := service.identity.sign digest } }

def stateInventory (tcpState : Bool) : List StateItem :=
  [⟨"process_tree", .portable, "criu", true, ""⟩, ⟨"memory", .portable, "criu", true, ""⟩,
   ⟨"threads", .portable, "criu", true, ""⟩,
   ⟨"filesystem", .portable, "gnu-tar", true, ""⟩,
   ⟨"environment", .portable, "shift-manifest", true, ""⟩,
   ⟨"network_connections", if tcpState then .machineSpecific else .external,
     if tcpState then "criu-tcp-repair" else "application-reconnect", false,
     "connections require CRIU TCP repair or application-level reconnect"⟩,
   ⟨"gpu_state", .machineSpecific, "vendor-checkpoint", false,
     "GPU state is only restorable when the vendor driver explicitly supports it"⟩,
   ⟨"remote_services", .external, "reconnect", false, ""⟩]

def compatibilityID (sha256 : Bytes → String) (machine : MachineCapabilities)
    (workload : WorkloadSpec) : String :=
  let features := machine.features.filterMap fun (feature, enabled) =>
    if enabled ∧ 4 < feature.utf8ByteSize ∧ feature.toList.take 4 = "cpu.".toList then some feature
    else none
  sha256 (machine.os ++ "\n" ++ machine.architecture ++ "\n" ++ machine.kernel ++ "\n" ++
    workload.networkPolicy.text ++ "\n[" ++
    " ".intercalate (features.insertionSort (· ≤ ·)) ++ "]").toUTF8.toList

structure Archive where
  bytes : Bytes
  failure : Option String

structure StoreWorld where
  size : ChunkSize
  keys : KeyWorld
  put : PutWorld

def captureDirectory (service : Service δ) (world : StoreWorld) (workloadID assetName : String)
    (archive : Archive) (restoreOrder : Int) : Program Shelf String PutResult := do
  let result ← putAsset service.primitives world.size world.keys world.put workloadID assetName
    "application/vnd.shift.filesystem-tar" archive.bytes true restoreOrder
  match archive.failure with
  | some failure => Program.throw ("archive " ++ assetName ++ ": " ++ failure)
  | none => return result

def activeKeyVersion (service : Service δ) (world : KeyWorld) (workloadID : String) :
    Program Shelf String UInt32 := do
  let (version, _) ← Program.zoom Shelf.keys (fun keys s => { s with keys })
    (Program.mapError keyErrorMessage
      (getOrCreateWorkloadKey service.primitives.toPrimitives world.fault world.fresh world.nonce
        workloadID))
  return version

def assetMetrics (startedAt freezeStartedAt completedAt deduplicated : Int)
    (assets : List AssetManifest) : CheckpointMetrics where
  startedAt := startedAt
  freezeStartedAt := freezeStartedAt
  completedAt := completedAt
  duration := completedAt - startedAt
  plainBytes := (assets.map (·.plainSize)).sum
  storedBytes := (assets.map (·.storedSize)).sum
  deduplicatedBytes := deduplicated
  chunkCount := (assets.map fun asset => (asset.chunks.length : Int)).sum

structure CreateOptions where
  kind : CheckpointKind
  parentID : String
  leaveRunning : Bool
  tcpState : Bool

structure Observed where
  checkpointID : String
  workload : WorkloadSpec
  options : CreateOptions
  images : Archive
  root : Archive
  machine : MachineCapabilities
  filesystem : FilesystemCapture
  dependencies : List FileDependency
  criuVersion : String
  startedAt : Int
  freezeStartedAt : Int
  completedAt : Int

structure CreateWorld where
  images : StoreWorld
  root : StoreWorld
  keys : KeyWorld

/-- `Service.Create` from the captures on; `parentImages` is whether a parent's are given. -/
def create (service : Service δ) (world : CreateWorld) (o : Observed) (parentImages : Bool) :
    Program Shelf String CheckpointManifest := do
  let imageResult ←
    captureDirectory service world.images o.workload.id "process-state" o.images 20
  let filesystemResult ←
    captureDirectory service world.root o.workload.id "filesystem-root" o.root 10
  let assets := [filesystemResult.asset, imageResult.asset]
  let metrics := assetMetrics o.startedAt o.freezeStartedAt o.completedAt
    (filesystemResult.deduplicatedBytes + imageResult.deduplicatedBytes) assets
  let keyVersion ← activeKeyVersion service world.keys o.workload.id
  return signManifest service
    { format := stateFormatName
      formatVersion := stateFormatVersion
      id := o.checkpointID
      parentID := o.options.parentID
      kind := o.options.kind
      workload := o.workload
      sourceIdentity := service.identity.machine
      sourceMachine := o.machine
      createdAt := o.startedAt
      engine :=
        { name := "CRIU", version := o.criuVersion, leaveRunning := o.options.leaveRunning,
          parentImages, preCopy := false, preCopyPasses := 0, tcpState := o.options.tcpState,
          shellJob := true, fileLocks := true }
      assets
      stateInventory := stateInventory o.options.tcpState
      filesystem := o.filesystem
      dependencies := o.dependencies
      deviceNeeds := o.workload.resources.gpus
      requiredBytes := metrics.plainBytes
      metrics
      security := { keyVersion, manifestSignature := "", signerMachineID := "", algorithm := "" }
      manifestSHA256 := ""
      compatibilityID := compatibilityID service.primitives.sha256 o.machine o.workload }

def requireKeyVersion (keyVersion : UInt32) (asset : AssetManifest) : Program Shelf String Unit :=
  match asset.chunks.find? (·.keyVersion ≠ keyVersion) with
  | none => pure ()
  | some ref => Program.throw ("workload key rotated during the live checkpoint (asset " ++
      asset.name ++ " uses version " ++ toString ref.keyVersion ++ ", session pinned " ++
      toString keyVersion ++ ")")

def passes (service : Service δ) (workloadID : String) (keyVersion : UInt32) :
    Nat → List (StoreWorld × Archive) → Program Shelf String (List PutResult)
  | _, [] => pure []
  | pass, (world, archive) :: rest => do
    let result ← captureDirectory service world workloadID
      ("process-state-precopy-" ++ toString pass) archive 20
    requireKeyVersion keyVersion result.asset
    let results ← passes service workloadID keyVersion (pass + 1) rest
    return result :: results

def finalize (service : Service δ) (world : CreateWorld) (o : Observed)
    (passArchives : List (StoreWorld × Archive)) : Program Shelf String CheckpointManifest := do
  let keyVersion ← activeKeyVersion service world.keys o.workload.id
  let passResults ← passes service o.workload.id keyVersion 1 passArchives
  let imageResult ←
    captureDirectory service world.images o.workload.id "process-state" o.images 20
  requireKeyVersion keyVersion imageResult.asset
  let filesystemResult ←
    captureDirectory service world.root o.workload.id "filesystem-root" o.root 10
  requireKeyVersion keyVersion filesystemResult.asset
  let assets := filesystemResult.asset :: imageResult.asset :: passResults.map (·.asset)
  let metrics := assetMetrics o.startedAt o.freezeStartedAt o.completedAt
    (filesystemResult.deduplicatedBytes + imageResult.deduplicatedBytes +
      (passResults.map (·.deduplicatedBytes)).sum) assets
  return signManifest service
    { format := stateFormatName
      formatVersion := stateFormatVersion
      id := o.checkpointID
      parentID := ""
      kind := .full
      workload := o.workload
      sourceIdentity := service.identity.machine
      sourceMachine := o.machine
      createdAt := o.startedAt
      engine :=
        { name := "CRIU", version := o.criuVersion, leaveRunning := o.options.leaveRunning,
          parentImages := !passArchives.isEmpty, preCopy := !passArchives.isEmpty,
          preCopyPasses := passArchives.length, tcpState := o.options.tcpState,
          shellJob := true, fileLocks := true }
      assets
      stateInventory := stateInventory o.options.tcpState
      filesystem := o.filesystem
      dependencies := o.dependencies
      deviceNeeds := o.workload.resources.gpus
      requiredBytes := metrics.plainBytes
      metrics
      security := { keyVersion, manifestSignature := "", signerMachineID := "", algorithm := "" }
      manifestSHA256 := ""
      compatibilityID := compatibilityID service.primitives.sha256 o.machine o.workload }

/-- `captureFork`: engine and inventory come from the manifest that was forked, capture and
dependencies stay unset. -/
def captureFork (service : Service δ) (world : CreateWorld) (o : Observed)
    (forked : CheckpointManifest) : Program Shelf String CheckpointManifest := do
  let imageResult ←
    captureDirectory service world.images o.workload.id "process-state" o.images 20
  let filesystemResult ←
    captureDirectory service world.root o.workload.id "filesystem-root" o.root 10
  let assets := [filesystemResult.asset, imageResult.asset]
  let metrics := assetMetrics o.startedAt 0 o.completedAt
    (filesystemResult.deduplicatedBytes + imageResult.deduplicatedBytes) assets
  let keyVersion ← activeKeyVersion service world.keys o.workload.id
  return signManifest service
    { format := stateFormatName
      formatVersion := stateFormatVersion
      id := o.checkpointID
      parentID := ""
      kind := .full
      workload := o.workload
      sourceIdentity := service.identity.machine
      sourceMachine := o.machine
      createdAt := o.startedAt
      engine :=
        { forked.engine with leaveRunning := false, parentImages := false, preCopy := false }
      assets
      stateInventory := forked.stateInventory
      filesystem := .zero
      dependencies := []
      deviceNeeds := o.workload.resources.gpus
      requiredBytes := metrics.plainBytes
      metrics
      security := { keyVersion, manifestSignature := "", signerMachineID := "", algorithm := "" }
      manifestSHA256 := ""
      compatibilityID := compatibilityID service.primitives.sha256 o.machine o.workload }

def sampleWorkload (environment : List (String × String)) : WorkloadSpec :=
  ⟨"w", "worker", ["/bin/worker", "--serve"], "/srv/worker", "/srv/worker", environment, 0, 0,
    [⟨"/srv/worker", .readWrite, false, []⟩], [], none, ⟨0, 0, 0, 0, []⟩, .rejectIncompatible,
    .reconnect, none, none, none, 0, 0⟩

def sampleMachine : MachineCapabilities :=
  ⟨"source", "source", "linux", "", "6.1", "amd64", 1, 0, [], [], [], ⟨true, "4.0", true, [], []⟩,
    [], "", 0⟩

end Shiftgate.Checkpoint.Manifests
