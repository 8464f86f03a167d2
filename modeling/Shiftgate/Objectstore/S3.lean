import Shiftgate.Library.Growing
import Shiftgate.Objectstore.Objects

/-! The store on an S3 service, `internal/objectstore/s3.go`. The service keeps the digest a writer
announces with the object; a write with `If-None-Match: *` happens only where there is no object. -/

namespace Shiftgate.Objectstore

open Library Securestore

namespace S3

inductive Failure where
  | notFound
  | conflict
  | integrity
  | remote
  | invalidKey
  /-- The size is not between zero and 5 TiB. -/
  | sizeRange
  | digest (e : DigestError)
  deriving DecidableEq

/-- `keyPrefix` is the configured prefix without the slashes around it. -/
structure Config extends Encoding where
  keyPrefix : String
  normalise_normalise : ∀ text, normalise (normalise text) = normalise text

/-- `X-Amz-Meta-Sha256` is empty when the writer sent none. -/
structure StoredObject where
  content : Bytes
  recorded : String

abbrev Bucket := String → Option StoredObject

/-- `put` carries `If-None-Match: *`, the announced length and the stream. -/
inductive Request where
  | head (key : String)
  | get (key : String)
  | put (key : String) (stream : Bytes) (size : Int) (recorded : String)

structure Headers where
  contentLength : Int
  sha256 : String

@[reducible] def Reply : Request → Type
  | .head _ => Except Failure Headers
  | .get _ => Except Failure (Headers × Bytes)
  | .put _ _ _ _ => Except Failure Unit

/-- Where a request can be lost: before it takes effect, or with its reply. -/
inductive Lost where
  | request
  | reply

/-- A failure, and how much the service keeps of a stream that is too long. -/
structure Choice where
  fault : Option Lost
  kept : Nat

def headers (o : StoredObject) : Headers := ⟨o.content.length, o.recorded⟩

/-- A write that lacks bytes fails in the client, whose connection breaks off. -/
def perform (s : Bucket) : (request : Request) → Nat → Bucket × Reply request
  | .head key, _ =>
    match s key with
    | some o => (s, .ok (headers o))
    | none => (s, .error .notFound)
  | .get key, _ =>
    match s key with
    | some o => (s, .ok (headers o, o.content))
    | none => (s, .error .notFound)
  | .put key stream size recorded, kept =>
    match s key with
    | some _ => (s, .error .conflict)
    | none =>
      if (stream.length : Int) < size then (s, .error .remote)
      else (Function.update s key (some ⟨stream.take (max size.toNat kept), recorded⟩), .ok ())

def broken : (request : Request) → Reply request
  | .head _ => .error .remote
  | .get _ => .error .remote
  | .put _ _ _ _ => .error .remote

def serve (s : Bucket) (request : Request) (x : Choice) : Bucket × Reply request :=
  match x.fault with
  | none => perform s request x.kept
  | some .request => (s, broken request)
  | some .reply => ((perform s request x.kept).1, broken request)

abbrev Client (α : Type) := Thread Reply α

def send (request : Request) : Client (Reply request) := Thread.perform request

section Programs

variable (c : Config)

def fullKey (key : String) : Except Failure String :=
  match validateKey key with
  | .error .invalidKey => .error .invalidKey
  | .ok () => .ok (if c.keyPrefix = "" then key else c.keyPrefix ++ "/" ++ key)

def externalKey (key : String) : String :=
  let root := (c.keyPrefix ++ "/").toList
  if c.keyPrefix ≠ "" ∧ root.isPrefixOf key.toList then String.ofList (key.toList.drop root.length)
  else key

def externalInfo (info : ObjectInfo) : ObjectInfo := { info with key := externalKey c info.key }

def recordedHash (value : String) : Except Failure String :=
  let expected := c.normalise value
  if expected = "" then .ok ""
  else
    match expectedHash c.toEncoding expected with
    | .error _ => .error .integrity
    | .ok digest => .ok digest

def headFull (key : String) : Client (Except Failure ObjectInfo) := do
  match ← send (.head key) with
  | .error e => pure (.error e)
  | .ok reply =>
    match recordedHash c reply.sha256 with
    | .error e => pure (.error e)
    | .ok expected => pure (.ok ⟨key, reply.contentLength, expected⟩)

def head (key : String) : Client (Except Failure ObjectInfo) :=
  match fullKey c key with
  | .error e => pure (.error e)
  | .ok key => do
    match ← headFull c key with
    | .error e => pure (.error e)
    | .ok info => pure (.ok (externalInfo c info))

def accepts (size : Int) (expected : String) (existing : ObjectInfo) : Bool :=
  existing.size = size && (expected = "" || existing.sha256 = expected)

/-- A refused write looks at the object there through `Head`, which puts the prefix before a key
that has it already. -/
def putFull (key : String) (stream : Bytes) (size : Int) (expected : String) :
    Client (Except Failure ObjectInfo) := do
  match ← send (.put key stream size expected) with
  | .error .conflict =>
    match ← head c key with
    | .ok existing =>
      if accepts size expected existing then pure (.ok existing) else pure (.error .conflict)
    | .error _ => pure (.error .conflict)
  | .error e => pure (.error e)
  | .ok () =>
    if (stream.length : Int) ≠ size ∨ (expected ≠ "" ∧ c.sha256 stream ≠ expected) then
      pure (.error .integrity)
    else
      match ← headFull c key with
      | .error e => pure (.error e)
      | .ok info => pure (.ok (externalInfo c info))

def put (key : String) (stream : Bytes) (size : Int) (expectedSHA256 : String) :
    Client (Except Failure ObjectInfo) :=
  match fullKey c key with
  | .error e => pure (.error e)
  | .ok key =>
    if size < 0 ∨ size > maxObjectSize then pure (.error .sizeRange)
    else
      match expectedHash c.toEncoding expectedSHA256 with
      | .error e => pure (.error (.digest e))
      | .ok expected => do
        match ← headFull c key with
        | .ok existing =>
          if accepts size expected existing then pure (.ok (externalInfo c existing))
          else pure (.error .conflict)
        | .error .notFound => putFull c key stream size expected
        | .error e => pure (.error e)

def expectedOrDigest (expected digest : String) : String :=
  if expected ≠ "" then expected else digest

def get (key : String) : Client (Except Failure (ObjectInfo × Bytes)) :=
  match fullKey c key with
  | .error e => pure (.error e)
  | .ok key => do
    match ← send (.get key) with
    | .error e => pure (.error e)
    | .ok (reply, body) =>
      match recordedHash c reply.sha256 with
      | .error e => pure (.error e)
      | .ok expected =>
        if reply.contentLength ≥ 0 ∧ (body.length : Int) ≠ reply.contentLength then
          pure (.error .integrity)
        else if expected ≠ "" ∧ c.sha256 body ≠ expected then pure (.error .integrity)
        else
          pure (.ok (externalInfo c
            ⟨key, body.length, expectedOrDigest expected (c.sha256 body)⟩, body))

end Programs

inductive Op where
  | put (key : String) (stream : Bytes) (size : Int) (expected : String)
  | get (key : String)
  | head (key : String)
  deriving DecidableEq

inductive Answer where
  | info (info : ObjectInfo)
  | content (info : ObjectInfo) (content : Bytes)
  | error (e : Failure)
  deriving DecidableEq

def Answer.of {α : Type} (f : α → Answer) : Except Failure α → Answer
  | .ok a => f a
  | .error e => .error e

def program (c : Config) : Op → Client Answer
  | .put key stream size expected => do return .of .info (← put c key stream size expected)
  | .get key => do return .of (fun found => .content found.1 found.2) (← get c key)
  | .head key => do return .of .info (← head c key)

def store (c : Config) : Service Bucket Op Answer Choice Reply where
  program := program c
  serve s _ request x := some (serve s request x)
  fails x := x.fault.isSome
  restart s := s

end S3

end Shiftgate.Objectstore
