import Shiftgate.Securestore.Keys

/-! What the object stores of `internal/objectstore` share: the description of an object, the checks
of keys, parts and expected digests, and the errors. SHA-256 and the JSON text of a description
are parameters. -/

namespace Shiftgate.Objectstore

open Securestore List

def maxObjectSize : Int := 5 * 2 ^ 40

structure ObjectInfo where
  key : String
  size : Int
  sha256 : String
  deriving DecidableEq

structure PartInfo where
  number : Int
  size : Int
  sha256 : String
  deriving DecidableEq

structure MultipartUpload where
  key : String
  totalSize : Int
  expectedSHA256 : String
  deriving DecidableEq

/-- The digest in hex, `strings.ToLower` of `strings.TrimSpace`, and the JSON text of a description.
Digests are free of collisions. -/
structure Encoding where
  sha256 : Bytes → String
  normalise : String → String
  encode : ObjectInfo → Bytes
  decode : Bytes → Option ObjectInfo
  sha256_injective : Function.Injective sha256
  sha256_ne_empty : ∀ b, sha256 b ≠ ""
  decode_encode : ∀ info, decode (encode info) = some info

def Encoding.describe (c : Encoding) (key : String) (content : Bytes) : ObjectInfo :=
  ⟨key, content.length, c.sha256 content⟩

inductive KeyError where
  | invalidKey
  deriving DecidableEq

def components (key : String) : List (List Char) := key.toList.splitOn '/'

def validateKey (key : String) : Except KeyError Unit :=
  let characters := key.toList
  if key = "" ∨ key.utf8ByteSize > 1024 ∨ '\x00' ∈ characters ∨ '\\' ∈ characters ∨
      characters.head? = some '/' then
    .error .invalidKey
  else if characters.any fun c => c.toNat < 0x20 ∨ c.toNat = 0x7f then .error .invalidKey
  else if (components key).any fun part => part = [] ∨ part = ['.'] ∨ part = ['.', '.'] then
    .error .invalidKey
  else .ok ()

inductive DigestError where
  | length
  | hexadecimal
  deriving DecidableEq

def isHexadecimal (c : Char) : Bool := c.isDigit || ('a' ≤ c && c ≤ 'f')

def expectedHash (c : Encoding) (value : String) : Except DigestError String :=
  let value := c.normalise value
  if value = "" then .ok ""
  else if value.utf8ByteSize ≠ 64 then .error .length
  else if !value.toList.all isHexadecimal then .error .hexadecimal
  else .ok value

def validParts : Int → List PartInfo → Bool
  | _, [] => true
  | last, part :: rest =>
    !(part.number < 1 || part.number ≤ last || part.size < 0 || part.sha256.utf8ByteSize ≠ 64) &&
      validParts part.number rest

def validateParts (parts : List PartInfo) : Bool := !parts.isEmpty && validParts 0 parts

namespace Sample

def unary (numbers : List Nat) : Bytes := numbers.flatMap fun k => List.replicate k 1 ++ [0]

def numbers : Nat → Bytes → List Nat
  | _, [] => []
  | k, byte :: rest => if byte = 0 then k :: numbers 0 rest else numbers (k + 1) rest

theorem numbers_replicate (j k : Nat) (rest : Bytes) :
    numbers j (List.replicate k 1 ++ 0 :: rest) = (j + k) :: numbers 0 rest := by
  induction k generalizing j with
  | zero => simp [numbers]
  | succ k ih =>
    rw [replicate_succ, cons_append, numbers, if_neg (by decide), ih]
    congr 1
    omega

theorem numbers_unary (ks : List Nat) : numbers 0 (unary ks) = ks := by
  induction ks with
  | nil => rfl
  | cons k ks ih =>
    rw [unary, flatMap_cons, append_assoc, singleton_append, numbers_replicate,
      Nat.zero_add, ← unary, ih]

def letters (text : String) : List Nat := text.toList.map Char.toNat

def text (codes : List Nat) : String := String.ofList (codes.map Char.ofNat)

theorem text_letters (t : String) : text (letters t) = t := by
  simp [text, letters, Function.comp_def]

def encode (info : ObjectInfo) : Bytes :=
  unary (info.size.toNat :: (-info.size).toNat :: (letters info.key).length ::
    (letters info.key ++ letters info.sha256))

def decode (bytes : Bytes) : Option ObjectInfo :=
  match numbers 0 bytes with
  | size :: negative :: count :: codes =>
    some ⟨text (codes.take count), size - negative, text (codes.drop count)⟩
  | _ => none

theorem decode_encode (info : ObjectInfo) : decode (encode info) = some info := by
  simp [decode, encode, numbers_unary, text_letters]

def digest (content : Bytes) : String :=
  String.ofList (content.map (fun byte => Char.ofNat byte.toNat) ++ ['0'])

theorem toNat_ofNat_byte (byte : UInt8) : (Char.ofNat byte.toNat).toNat = byte.toNat := by
  have hvalid : byte.toNat.isValidChar := .inl (by have := byte.toNat_lt; omega)
  rw [Char.ofNat, dif_pos hvalid]
  rfl

theorem digest_injective : Function.Injective digest := by
  intro a b h
  have hlists := append_cancel_right (String.ofList_injective h)
  refine map_injective_iff.mpr ?_ hlists
  intro x y hxy
  have hcodes := congrArg Char.toNat hxy
  rw [toNat_ofNat_byte, toNat_ofNat_byte] at hcodes
  exact UInt8.toNat_inj.mp hcodes

def encoding : Encoding where
  sha256 := digest
  normalise := id
  encode := encode
  decode := decode
  sha256_injective := digest_injective
  sha256_ne_empty content h := by simpa [digest] using congrArg String.toList h
  decode_encode := decode_encode

end Sample

end Shiftgate.Objectstore
