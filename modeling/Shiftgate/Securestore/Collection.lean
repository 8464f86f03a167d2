import Shiftgate.Library.Lines
import Shiftgate.Library.Program
import Shiftgate.Securestore.Keys

/-! The encrypted collection of `internal/securestore/collection.go`: a snapshot file that is
replaced as a whole, a journal of one line for each later mutation, and the copy in memory. A write
can leave a part of a line. -/

namespace Shiftgate.Securestore.Collection

open Library

def systemMetadataKeyID : String := "__shift_system_metadata__"

def journalCompactEntries : Nat := 128

def journalCompactBytes : Nat := 256 <<< 10

def newline : UInt8 := 10

inductive Op where
  | put
  | delete

def Op.text : Op → String
  | put => "put"
  | delete => "delete"

structure JournalEntry where
  formatVersion : Nat
  keyVersion : UInt32
  revision : UInt64
  op : String
  id : String
  nonce : Bytes
  ciphertext : Bytes

abbrev Items (T : Type) := String → Option T

variable {T : Type}

def Items.set (items : Items T) (id : String) (value : Option T) : Items T :=
  fun id' => if id' = id then value else items id'

structure Data (T : Type) where
  revision : UInt64
  items : Items T

structure Files (T : Type) where
  snapshot : Option (Data T)
  journal : Option Bytes

structure Coll (T : Type) where
  files : Files T
  data : Data T
  journalEntryN : Nat
  journalBytes : Nat
  journalDamaged : Bool

def Coll.setJournal (c : Coll T) (journal : Option Bytes) : Coll T :=
  { c with files := { c.files with journal } }

def Coll.setSnapshot (c : Coll T) (snapshot : Data T) : Coll T :=
  { c with files := { c.files with snapshot := some snapshot } }

def Coll.setRevision (c : Coll T) (revision : UInt64) : Coll T :=
  { c with data := { c.data with revision } }

def Coll.setItem (c : Coll T) (id : String) (value : Option T) : Coll T :=
  { c with data := { c.data with items := c.data.items.set id value } }

def Coll.resetCounters (c : Coll T) : Coll T := { c with journalEntryN := 0, journalBytes := 0 }

def Coll.clearDamaged (c : Coll T) : Coll T := { c with journalDamaged := false }

def Coll.countLine (c : Coll T) (size : Nat) : Coll T :=
  { c with journalEntryN := c.journalEntryN + 1, journalBytes := c.journalBytes + size }

def Coll.writtenJournal (c : Coll T) : Bytes := c.files.journal.getD []

/-- The AEAD, the manager's keys for the system metadata, and the JSON of entries and values, which
is read back as it was written, in lines that are not empty and have no newline. -/
structure Env (T : Type) where
  primitives : Primitives
  label : String
  workloadKey : UInt32 → Option Key
  marshalEntry : JournalEntry → Bytes
  unmarshalEntry : Bytes → Option JournalEntry
  marshalValue : T → Bytes
  unmarshalValue : Bytes → Option T
  unmarshalEntry_marshalEntry : ∀ entry, unmarshalEntry (marshalEntry entry) = some entry
  marshalEntry_ne_nil : ∀ entry, marshalEntry entry ≠ []
  newline_not_mem : ∀ entry, newline ∉ marshalEntry entry
  unmarshalValue_marshalValue : ∀ value, unmarshalValue (marshalValue value) = some value

inductive CollError where
  | recordIDRequired
  | notFound
  | update (message : String)
  | io (step : String)

/-- `persistence.WriteJSON`: all before the rename, the rename, the directory sync. -/
structure PersistFaults where
  prepare : Fault := .none
  rename : Fault := .none
  syncDirectory : Fault := .none

structure TruncateFaults where
  openFile : Fault := .none
  truncate : Fault := .none
  sync : Fault := .none

/-- The key version and nonce, what becomes of each step, and how much of its line a failing write
leaves. -/
structure AppendEvents where
  keyVersion : UInt32
  nonce : Nonce
  persist : PersistFaults := {}
  remove : Fault := .none
  statSnapshot : Fault := .none
  prepare : Fault := .none
  mkdir : Fault := .none
  openFile : Fault := .none
  stat : Fault := .none
  write : Fault := .none
  landed : Nat := 0
  sync : Fault := .none
  truncate : TruncateFaults := {}
  syncDirectory : Fault := .none
  compact : PersistFaults := {}
  compactRemove : Fault := .none

structure OpenFaults where
  readSnapshot : Fault := .none
  readJournal : Fault := .none
  truncate : TruncateFaults := {}

section Journal

variable (env : Env T)

def entryAad (revision : UInt64) (op id : String) : String :=
  env.label ++ "\n" ++ toString revision ++ "\n" ++ op ++ "\n" ++ id

def openEntry (entry : JournalEntry) : Option Bytes :=
  match env.workloadKey entry.keyVersion with
  | none => none
  | some key =>
    if h : entry.nonce.length = nonceSize then
      (decrypt env.primitives key.val systemMetadataKeyID "metadata-collection-entry"
        ⟨entry.nonce, h⟩ entry.ciphertext (entryAad env entry.revision entry.op entry.id)).toOption
    else none

inductive LineEffect (T : Type) where
  | damaged
  | covered
  | applied (data : Data T)

def replayLine (data : Data T) (line : Bytes) : LineEffect T :=
  match env.unmarshalEntry line with
  | none => .damaged
  | some entry =>
    if entry.formatVersion ≠ 1 ∨ (entry.op ≠ "put" ∧ entry.op ≠ "delete") ∨ entry.id = "" then
      .damaged
    else if entry.revision < data.revision then .covered
    else
      match openEntry env entry with
      | none => .damaged
      | some plaintext =>
        if entry.op = "put" then
          match env.unmarshalValue plaintext with
          | none => .damaged
          | some value =>
            .applied { revision := entry.revision, items := data.items.set entry.id (some value) }
        else .applied { revision := entry.revision, items := data.items.set entry.id none }

structure Replay (T : Type) where
  data : Data T
  entryN : Nat
  damaged : Bool := false
  tornTail : Option Nat := none

def replayLines (offset : Nat) : List Bytes → Data T → Nat → Replay T
  | [], data, n => { data, entryN := n }
  | line :: rest, data, n =>
    if line = [] then replayLines (offset + line.length + 1) rest data n
    -- the last segment has no newline after it
    else if rest = [] then { data, entryN := n, tornTail := some offset }
    else
      match replayLine env data line with
      | .damaged => { data, entryN := n, damaged := true }
      | .covered => replayLines (offset + line.length + 1) rest data n
      | .applied data' => replayLines (offset + line.length + 1) rest data' (n + 1)

def journalLine (keyVersion : UInt32) (nonce : Nonce) (revision : UInt64) (op : Op) (id : String)
    (value : Option T) : Except CollError Bytes :=
  match env.workloadKey keyVersion with
  | none => .error (.io "workload key")
  | some key =>
    match encrypt env.primitives key.val systemMetadataKeyID "metadata-collection-entry" nonce
        ((value.map env.marshalValue).getD []) (entryAad env revision op.text id) with
    | .error _ => .error (.io "encrypt")
    | .ok ciphertext =>
      .ok (env.marshalEntry ⟨1, keyVersion, revision, op.text, id, nonce.val, ciphertext⟩ ++
        [newline])

end Journal

section Steps

abbrev CollProgram (T : Type) := Program (Coll T) CollError

open Program (get modify attempt liftExcept onlyIf effect point throw)

def persist (f : PersistFaults) : CollProgram T Unit := do
  effect f.prepare (.io "write snapshot") id
  effect f.rename (.io "commit snapshot") fun c => c.setSnapshot c.data
  effect f.syncDirectory (.io "sync directory") id

def truncateJournal (f : TruncateFaults) (size : Nat) : CollProgram T Unit := do
  let c ← get
  if c.files.journal.isNone then throw (.io "open journal")
  else do
    effect f.openFile (.io "open journal") id
    effect f.truncate (.io "truncate journal") fun c =>
      c.setJournal (c.files.journal.map (·.take size))
    effect f.sync (.io "sync journal") id

def removeJournal (fault : Fault) : CollProgram T Unit :=
  effect fault (.io "remove journal") fun c => c.setJournal none

def compact (f : PersistFaults) (remove : Fault) : CollProgram T Unit := do
  persist f
  removeJournal remove
  modify Coll.resetCounters

def maybeCompact (ev : AppendEvents) : CollProgram T Unit := do
  let c ← get
  if c.journalEntryN < journalCompactEntries ∧ c.journalBytes < journalCompactBytes then pure ()
  else do
    let _ ← attempt (compact ev.compact ev.compactRemove)

def persistNext (f : PersistFaults) : CollProgram T Unit := do
  let c ← get
  modify fun c => c.setRevision (c.data.revision + 1)
  match ← attempt (persist f) with
  | .ok () => pure ()
  | .error e => do
    modify fun c' => c'.setRevision c.data.revision
    throw e

def foldDamaged (ev : AppendEvents) : CollProgram T Unit := do
  persistNext ev.persist
  let _ ← attempt (removeJournal ev.remove)
  modify Coll.resetCounters
  modify Coll.clearDamaged

def writeLine (ev : AppendEvents) (line : Bytes) : CollProgram T Unit := do
  modify fun c =>
    c.setJournal (some (c.writtenJournal ++ if ev.write = .none then line else line.take ev.landed))
  effect ev.write (.io "write journal") id

/-- The sync is made in any case and its error counts second. -/
def appendLine (ev : AppendEvents) (line : Bytes) : CollProgram T Unit := do
  let written ← attempt (writeLine ev line)
  let synced ← attempt (effect ev.sync (.io "sync journal") id)
  liftExcept written
  liftExcept synced

def cutAppend (f : TruncateFaults) (preSize : Nat) (next : UInt64) : CollProgram T Unit := do
  match ← attempt (truncateJournal f preSize) with
  | .ok () => pure ()
  | .error _ => modify fun c => c.setRevision next

def recordLine (ev : AppendEvents) (line : Bytes) (next : UInt64) (freshJournal : Bool) :
    CollProgram T Unit := do
  modify fun c => c.setRevision next
  onlyIf freshJournal (point ev.syncDirectory)
  modify fun c => c.countLine line.length
  maybeCompact ev

def journalEntry (env : Env T) (ev : AppendEvents) (op : Op) (id : String) (value : Option T) :
    CollProgram T Unit := do
  let c ← get
  effect ev.prepare (.io "prepare entry") (fun c => c)
  let line ← liftExcept (journalLine env ev.keyVersion ev.nonce (c.data.revision + 1) op id value)
  effect ev.mkdir (.io "create directory") (fun c => c)
  effect ev.openFile (.io "open journal") fun c => c.setJournal (some c.writtenJournal)
  effect ev.stat (.io "stat journal") (fun c => c)
  match ← attempt (appendLine ev line) with
  | .ok () => recordLine ev line (c.data.revision + 1) c.files.journal.isNone
  | .error e => do
    cutAppend ev.truncate c.writtenJournal.length (c.data.revision + 1)
    throw e

/-- A `Stat` of the snapshot that fails for another reason than absence counts as presence. -/
def appendEntry (env : Env T) (ev : AppendEvents) (op : Op) (id : String) (value : Option T) :
    CollProgram T Unit := do
  let c ← get
  if c.journalDamaged then foldDamaged ev
  else do
    point ev.statSnapshot
    if c.files.snapshot.isNone ∧ ev.statSnapshot = .none then persistNext ev.persist
    else journalEntry env ev op id value

def mutate (env : Env T) (ev : AppendEvents) (op : Op) (id : String) (value : Option T) :
    CollProgram T Unit := do
  let c ← get
  modify fun c => c.setItem id value
  match ← attempt (appendEntry env ev op id value) with
  | .ok () => pure ()
  | .error e => do
    modify fun c' => c'.setItem id (c.data.items id)
    throw e

def put (env : Env T) (ev : AppendEvents) (id : String) (value : T) : CollProgram T Unit :=
  if id = "" then throw .recordIDRequired else mutate env ev .put id (some value)

def update (env : Env T) (ev : AppendEvents) (id : String) (f : T → Except String T) :
    CollProgram T Unit := do
  let c ← get
  match c.data.items id with
  | none => throw .notFound
  | some current =>
    match f current with
    | .error message => throw (.update message)
    | .ok next => mutate env ev .put id (some next)

def delete (env : Env T) (ev : AppendEvents) (id : String) : CollProgram T Unit := do
  let c ← get
  match c.data.items id with
  | none => throw .notFound
  | some _ => mutate env ev .delete id none

def Coll.fresh (files : Files T) : Coll T where
  files := files
  data := { revision := 0, items := fun _ => none }
  journalEntryN := 0
  journalBytes := 0
  journalDamaged := false

def Coll.load (c : Coll T) : Coll T := { c with data := c.files.snapshot.getD c.data }

def Coll.replayed (c : Coll T) (encoded : Bytes) (r : Replay T) : Coll T :=
  { c with data := r.data, journalEntryN := r.entryN, journalBytes := encoded.length,
           journalDamaged := r.damaged }

def Coll.damage (c : Coll T) : Coll T := { c with journalDamaged := true }

def Coll.setJournalBytes (c : Coll T) (n : Nat) : Coll T := { c with journalBytes := n }

def cutTail (f : TruncateFaults) (tornTail : Nat) : CollProgram T Unit := do
  match ← attempt (truncateJournal f tornTail) with
  | .ok () => modify fun c => c.setJournalBytes tornTail
  | .error _ => modify Coll.damage

def replayJournal (env : Env T) (f : OpenFaults) : CollProgram T Unit := do
  effect f.readJournal (.io "read journal") fun c => c
  let c ← get
  match c.files.journal with
  | none => pure ()
  | some encoded => do
    let r := replayLines env 0 (encoded.splitOn newline) c.data 0
    modify fun c => c.replayed encoded r
    match r.tornTail with
    | none => pure ()
    | some tornTail => cutTail f.truncate tornTail

def openCollection (env : Env T) (f : OpenFaults) : CollProgram T Unit := do
  modify fun c => Coll.fresh c.files
  effect f.readSnapshot (.io "read snapshot") fun c => c
  modify Coll.load
  replayJournal env f

end Steps

end Shiftgate.Securestore.Collection
