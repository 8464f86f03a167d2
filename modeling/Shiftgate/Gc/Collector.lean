import Shiftgate.Chunkstore.Store
import Shiftgate.Library.Runs

/-! The online collector of `internal/gc/gc.go` beside the checkpoint writers of one agent. A writer
that takes part holds the write guard shared, the collector holds it alone while it scans and while
it deletes. -/

namespace Shiftgate.Gc

open Library Securestore Chunkstore

def minGrace : Nat := 3600

structure Manifest where
  id : String
  manifestSHA256 : String
  chunks : List ChunkRef
  deriving DecidableEq

inductive Origin where
  /-- A mutating request of the local API. -/
  | handler
  /-- The periodic checkpoint loop. -/
  | policy
  /-- A peer's request on the remote listener. -/
  | peer
  /-- A peer's request through the relay bridge. -/
  | relay
  /-- A capture of the migration orchestrator. -/
  | migration
  deriving DecidableEq

/-- Nothing in the agent calls `SetWriteGuard`. -/
def orchestratorGuard : Bool := false

def Origin.holdsGuard : Origin → Bool
  | .handler | .policy | .peer => true
  | .relay => false
  | .migration => orchestratorGuard

structure Installed where
  manifest : Manifest
  origin : Origin
  deriving DecidableEq

def Manifest.paths (m : Manifest) : List String :=
  m.chunks.filterMap fun ref => (chunkPath ref).toOption

inductive CandidateStatus where
  | waiting
  | eligible
  | deleted
  | skipped (error : String)
  deriving DecidableEq

structure Candidate where
  path : String
  bytes : Nat
  modified : Nat
  firstSeenAt : Nat
  eligibleAt : Nat
  status : CandidateStatus
  deriving DecidableEq

inductive PlanStatus where
  | planned
  | running
  | paused
  | completed
  deriving DecidableEq

structure Plan where
  id : String
  generatedAt : Nat
  gracePeriod : Nat
  candidates : List Candidate
  cursor : Nat
  status : PlanStatus
  deriving DecidableEq

structure ChunkInfo where
  path : String
  storedSize : Nat
  modified : Nat

def candidateFor (previous : FileTable Nat) (grace now : Nat) (info : ChunkInfo) : Candidate :=
  let first := (previous.get info.path).getD now
  { path := info.path, bytes := info.storedSize, modified := info.modified, firstSeenAt := first
    eligibleAt := first + grace
    status := if first + grace ≤ now then .eligible else .waiting }

def candidatesOf (previous : FileTable Nat) (grace now : Nat) (referenced : List String)
    (onDisk : List ChunkInfo) : List Candidate :=
  (onDisk.filter fun info => info.path ∉ referenced).map (candidateFor previous grace now)

def orphansOf (candidates : List Candidate) : FileTable Nat :=
  candidates.foldl (fun table c => table.set c.path c.firstSeenAt) .empty

def planOf (id : String) (grace now : Nat) (candidates : List Candidate) : Plan where
  id := id
  generatedAt := now
  gracePeriod := grace
  candidates := candidates.insertionSort fun a b => a.eligibleAt ≤ b.eligibleAt
  cursor := 0
  status := .planned

inductive WriterPoint where
  /-- A capture, with the references that its `PutAsset` calls returned so far. -/
  | resolving (chunks : List ChunkRef)
  /-- In `Save`, before it looks for a checkpoint of the same id. -/
  | saving (manifest : Manifest)
  /-- In `Save`, before the manifest file is written. -/
  | writing (manifest : Manifest)
  /-- In `Save`, before the index entry is written. -/
  | indexing (manifest : Manifest)
  /-- In `ImportChunkResult`, before the upload is put in place. -/
  | uploading (workloadID : String) (ref : ChunkRef) (upload : Bytes)
  /-- In `ImportChunkResult`, before its last verification. -/
  | checking (workloadID : String) (ref : ChunkRef)
  /-- In `Delete`, before the index entry is removed. -/
  | deleting (id : String)
  /-- In `Delete`, before the checkpoint's directory is removed. -/
  | removing (id : String)
  | done
  deriving DecidableEq

structure Writer where
  origin : Origin
  point : WriterPoint

inductive Collecting where
  | idle
  /-- In `Plan` with the guard, before the reference scan. -/
  | planning (id : String) (grace now : Nat) (previous : FileTable Nat)
  /-- In `Plan` with the guard, before the enumeration. -/
  | enumerating (id : String) (grace now : Nat) (previous : FileTable Nat)
      (referenced : List String)
  /-- In `Plan` after the guard, before the observations are saved. -/
  | observed (plan : Plan) (orphans : FileTable Nat)
  /-- In `Plan` after the guard, before the plan is saved. -/
  | planned (plan : Plan)
  /-- In `Sweep` with the guard, before the reference scan. -/
  | scanning (plan : Plan) (now : Nat)
  /-- In `Sweep` with the guard, before the candidate at the plan's cursor. -/
  | sweeping (plan : Plan) (now : Nat) (referenced : List String)
  deriving DecidableEq

def Collecting.exclusive : Collecting → Bool
  | .idle | .observed _ _ | .planned _ => false
  | _ => true

/-- The chunk files with their modification times, the repository (manifest files and index), the
tasks and the collector's own files. `refused` holds the files that an import removed at its last
verification, until they are stored again. -/
structure Agent where
  files : Files
  modified : FileTable Nat
  refused : List String
  manifests : FileTable Installed
  index : FileTable String
  writers : List Writer
  collector : Collecting
  orphans : FileTable Nat
  plans : FileTable Plan
  now : Nat

namespace Agent

def shared (a : Agent) : Bool :=
  a.writers.any fun w => w.origin.holdsGuard && decide (w.point ≠ .done)

def store (a : Agent) (path : String) (bytes : Bytes) : Agent :=
  { a with
    files := a.files.set path bytes
    modified := a.modified.set path a.now
    refused := a.refused.filter (· ≠ path) }

def unlink (a : Agent) (path : String) : Agent :=
  { a with files := a.files.erase path, modified := a.modified.erase path }

def refuse (a : Agent) (path : String) : Agent :=
  if (a.files.get path).isSome then { a.unlink path with refused := path :: a.refused } else a

def setPoint (a : Agent) (i : Nat) (w : Writer) (point : WriterPoint) : Agent :=
  { a with writers := a.writers.set i { w with point := point } }

def setCollector (a : Agent) (c : Collecting) : Agent := { a with collector := c }

inductive LoadError where
  | notFound
  | other (message : String)

def load (a : Agent) (id : String) : Except LoadError Manifest :=
  match a.index.get id, a.manifests.get id with
  | some hash, some installed =>
    if installed.manifest.manifestSHA256 = hash then .ok installed.manifest
    else .error (.other "manifest hash does not match checkpoint index")
  | _, _ => .error .notFound

def referencedChunks (a : Agent) : Option (List String) :=
  if a.index.names.all fun id => (a.load id).toOption.isSome then
    some (a.manifests.entries.flatMap fun entry => entry.2.manifest.paths)
  else none

def repositoryStep (a : Agent) (i : Nat) (w : Writer) (ok : Bool) : Option Agent :=
  match w.point with
  | .saving m =>
    match a.load m.id with
    | .error .notFound => some (a.setPoint i w (.writing m))
    | _ => some (a.setPoint i w .done)
  | .writing m =>
    if ok then
      some ({ a with manifests := a.manifests.set m.id ⟨m, w.origin⟩ }.setPoint i w (.indexing m))
    else some (a.setPoint i w .done)
  | .indexing m =>
    if ok then some ({ a with index := a.index.set m.id m.manifestSHA256 }.setPoint i w .done)
    else some ({ a with manifests := a.manifests.erase m.id }.setPoint i w .done)
  | .deleting id =>
    if ok && (a.index.get id).isSome then
      some ({ a with index := a.index.erase id }.setPoint i w (.removing id))
    else some (a.setPoint i w .done)
  | .removing id =>
    if ok then some ({ a with manifests := a.manifests.erase id }.setPoint i w .done)
    else some (a.setPoint i w .done)
  | _ => none

section Store

variable (p : ChunkPrimitives) (keys : KeySource)

def encodedChunk (workloadID : String) (keyVersion : UInt32) (nonce : Nonce)
    (plaintext compressed : Bytes) : Except String (ChunkRef × Bytes) := do
  let dataKey ← keyMessage (keys workloadID keyVersion)
  let addr ← address p dataKey workloadID plaintext
  let ciphertext ← keyMessage (encrypt p.toPrimitives dataKey workloadID "checkpoint-chunk" nonce
    compressed (chunkAAD workloadID addr keyVersion plaintext.length))
  let encoded ← encodeChunk keyVersion plaintext.length nonce.val ciphertext
  return ({ address := addr, keyVersion := keyVersion, plainSize := plaintext.length
            storedSize := encoded.length, cipherSHA256 := p.sha256 encoded
            plainSHA256 := p.sha256 plaintext }, encoded)

/-- The end of `putChunk`: a file at the chunk's path is used when it holds the same plaintext,
under its own digest. -/
def resolveChunk (files : Files) (workloadID : String) (plaintext : Bytes) (ref : ChunkRef)
    (path : String) (encoded : Bytes) : Except String (ChunkRef × Option Bytes) :=
  match files.get path with
  | none => .ok (ref, some encoded)
  | some stored =>
    let existing :=
      { ref with storedSize := (stored.length : Int), cipherSHA256 := p.sha256 stored }
    match verifyChunk p keys files workloadID existing with
    | .ok (found, _) =>
      if found = plaintext then .ok (existing, none)
      else .error ("content address collision or corrupt existing chunk " ++ ref.address)
    | .error e =>
      if stored.length = encoded.length then
        .error ("content address collision or corrupt existing chunk " ++ ref.address)
      else .error ("verify concurrent chunk " ++ ref.address ++ ": " ++ e)

def putChunk (files : Files) (workloadID : String) (keyVersion : UInt32) (nonce : Nonce)
    (plaintext compressed : Bytes) : Except String (ChunkRef × Option (String × Bytes)) :=
  match encodedChunk p keys workloadID keyVersion nonce plaintext compressed with
  | .error e => .error e
  | .ok (ref, encoded) =>
    match chunkPath ref with
    | .error e => .error e
    | .ok path =>
      match resolveChunk p keys files workloadID plaintext ref path encoded with
      | .error e => .error e
      | .ok (resolved, new) => .ok (resolved, new.map (path, ·))

def putStep (a : Agent) (i : Nat) (w : Writer) (chunks : List ChunkRef) (workloadID : String)
    (keyVersion : UInt32) (nonce : Nonce) (plaintext compressed : Bytes) : Agent :=
  match putChunk p keys a.files workloadID keyVersion nonce plaintext compressed with
  | .error _ => a.setPoint i w .done
  | .ok (resolved, none) => a.setPoint i w (.resolving (chunks ++ [resolved]))
  | .ok (resolved, some (path, encoded)) =>
    (a.store path encoded).setPoint i w (.resolving (chunks ++ [resolved]))

/-- One step of `ImportChunkResult`: the upload is put in place unless the file there verifies, and
a file that fails the last verification is removed. -/
def uploadStep (a : Agent) (i : Nat) (w : Writer) (ok : Bool) : Option Agent :=
  match w.point with
  | .uploading workloadID ref upload =>
    match chunkPath ref with
    | .error _ => some (a.setPoint i w .done)
    | .ok path =>
      if ¬ ok ∨ sizesInRange ref = false ∨ verifies p keys a.files workloadID ref = true ∨
          (upload.length : Int) ≠ ref.storedSize ∨ p.sha256 upload ≠ ref.cipherSHA256 then
        some (a.setPoint i w .done)
      else some ((a.store path upload).setPoint i w (.checking workloadID ref))
  | .checking workloadID ref =>
    match chunkPath ref with
    | .error _ => some (a.setPoint i w .done)
    | .ok path =>
      if verifies p keys a.files workloadID ref then some (a.setPoint i w .done)
      else some ((a.refuse path).setPoint i w .done)
  | _ => none

end Store

def enumerate (a : Agent) : List ChunkInfo :=
  a.files.entries.map fun entry =>
    { path := entry.1, storedSize := entry.2.length, modified := (a.modified.get entry.1).getD 0 }

def deleteRef (a : Agent) (c : Candidate) : Except String Agent :=
  match a.files.get c.path with
  | none => .error "no such file or directory"
  | some bytes =>
    if a.modified.get c.path ≠ some c.modified ∨ bytes.length ≠ c.bytes then
      .error "chunk changed since gc planning"
    else .ok (a.unlink c.path)

def sweepCandidate (a : Agent) (now : Nat) (referenced : List String) (c : Candidate) :
    Agent × Candidate :=
  if c.status ≠ .eligible ∨ now < c.eligibleAt then (a, c)
  else if now < c.modified + minGrace then (a, c)
  else if c.path ∈ referenced then (a, { c with status := .skipped "chunk became referenced" })
  else match a.deleteRef c with
    | .error e => (a, { c with status := .skipped e })
    | .ok b => (b, { c with status := .deleted })

def savePlan (a : Agent) (plan : Plan) : Agent := { a with plans := a.plans.set plan.id plan }

def sweepNext (a : Agent) (plan : Plan) (now : Nat) (referenced : List String) (c : Candidate) :
    Agent :=
  let swept := a.sweepCandidate now referenced c
  let next := { plan with candidates := plan.candidates.set plan.cursor swept.2
                          cursor := plan.cursor + 1 }
  let saved := if next.cursor % 128 = 0 then swept.1.savePlan next else swept.1
  saved.setCollector (.sweeping next now referenced)

def collectStep (a : Agent) (ok : Bool) : Option Agent :=
  match a.collector with
  | .idle => none
  | .planning id grace now previous =>
    match a.referencedChunks, ok with
    | some referenced, true => some (a.setCollector (.enumerating id grace now previous referenced))
    | _, _ => some (a.setCollector .idle)
  | .enumerating id grace now previous referenced =>
    if ok then
      let candidates := candidatesOf previous grace now referenced a.enumerate
      some (a.setCollector (.observed (planOf id grace now candidates) (orphansOf candidates)))
    else some (a.setCollector .idle)
  | .observed plan orphans =>
    if ok then some ({ a with orphans := orphans }.setCollector (.planned plan))
    else some (a.setCollector .idle)
  | .planned plan =>
    if ok then some ((a.savePlan plan).setCollector .idle) else some (a.setCollector .idle)
  | .scanning plan now =>
    match a.referencedChunks, ok with
    | some referenced, true => some (a.setCollector (.sweeping plan now referenced))
    | _, _ => some ((a.savePlan { plan with status := .paused }).setCollector .idle)
  | .sweeping plan now referenced =>
    match plan.candidates[plan.cursor]? with
    | none => some ((a.savePlan { plan with status := .completed }).setCollector .idle)
    | some c =>
      if ok then some (a.sweepNext plan now referenced c)
      else some ((a.savePlan { plan with status := .paused }).setCollector .idle)

inductive Task where
  | capture
  | importManifest (manifest : Manifest)
  | importChunk (workloadID : String) (ref : ChunkRef) (upload : Bytes)
  | delete (id : String)
  deriving DecidableEq

def Task.servedBy : Task → Origin → Bool
  | .capture, .handler | .capture, .policy | .capture, .migration => true
  | .importManifest _, .peer | .importManifest _, .relay => true
  | .importChunk _ _ _, .peer | .importChunk _ _ _, .relay => true
  | .delete _, _ => true
  | _, _ => false

def Task.entry : Task → WriterPoint
  | .capture => .resolving []
  | .importManifest m => .saving m
  | .importChunk workloadID ref upload => .uploading workloadID ref upload
  | .delete id => .deleting id

inductive Action where
  | tick (seconds : Nat)
  /-- A task starts, with the guard if it takes part in it. -/
  | start (origin : Origin) (task : Task)
  | put (writer : Nat) (workloadID : String) (keyVersion : UInt32) (nonce : Nonce)
      (plaintext compressed : Bytes)
  /-- A capture has stored its last chunk and saves its manifest. -/
  | save (writer : Nat) (id manifestSHA256 : String)
  /-- A save, an import or a delete takes its next step. -/
  | advance (writer : Nat) (ok : Bool)
  /-- A task ends early, by an error or a cancellation. -/
  | abandon (writer : Nat)
  | plan (id : String) (grace : Nat)
  | sweep (id : String)
  | collect (ok : Bool)
  /-- The agent stops and starts again; what is on disk stays. -/
  | crash

def step (p : ChunkPrimitives) (keys : KeySource) (a : Agent) : Action → Option Agent
  | .tick seconds => some { a with now := a.now + seconds }
  | .start origin task =>
    if task.servedBy origin ∧ (origin.holdsGuard = true → a.collector.exclusive = false) then
      some { a with writers := a.writers ++ [⟨origin, task.entry⟩] }
    else none
  | .put i workloadID keyVersion nonce plaintext compressed =>
    match a.writers[i]? with
    | some w =>
      match w.point with
      | .resolving chunks =>
        some (a.putStep p keys i w chunks workloadID keyVersion nonce plaintext compressed)
      | _ => none
    | none => none
  | .save i id manifestSHA256 =>
    match a.writers[i]? with
    | some w =>
      match w.point with
      | .resolving chunks => some (a.setPoint i w (.saving ⟨id, manifestSHA256, chunks⟩))
      | _ => none
    | none => none
  | .advance i ok =>
    match a.writers[i]? with
    | some w =>
      match a.repositoryStep i w ok with
      | some b => some b
      | none => a.uploadStep p keys i w ok
    | none => none
  | .abandon i =>
    match a.writers[i]? with
    | some w => some (a.setPoint i w .done)
    | none => none
  | .plan id grace =>
    if a.collector = .idle ∧ a.shared = false then
      some (a.setCollector (.planning id (max grace minGrace) a.now a.orphans))
    else none
  | .sweep id =>
    match a.plans.get id with
    | some plan =>
      if a.collector = .idle ∧ a.shared = false then
        some (a.setCollector (.scanning { plan with status := .running } a.now))
      else none
    | none => none
  | .collect ok => a.collectStep ok
  | .crash => some { a with writers := [], collector := .idle }

end Agent

end Shiftgate.Gc
