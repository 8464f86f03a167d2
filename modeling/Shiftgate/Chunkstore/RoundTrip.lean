import Shiftgate.Chunkstore.Assets
import Shiftgate.Chunkstore.Import
import Shiftgate.Securestore.KeyVersions

/-! An asset that was put is restored byte for byte. A fresh chunk verifies against its own
reference, one found on disk was verified when its reference was made, and later chunks only add
files. -/

namespace Shiftgate.Chunkstore

open Library Securestore List

@[simp] theorem length_bigEndian (width n : Nat) : (bigEndian width n).length = width := by
  induction width with
  | zero => rfl
  | succ width ih => simp [bigEndian, ih]

theorem foldl_bigEndian (width n acc : Nat) :
    (bigEndian width n).foldl (fun m b => m * 256 + b.toNat) acc =
      acc * 256 ^ width + n % 256 ^ width := by
  induction width generalizing acc with
  | zero => simp [bigEndian, Nat.mod_one]
  | succ width ih =>
    rw [bigEndian, foldl_cons, ih, Nat.mod_pow_succ, UInt8.toNat_ofNat', Nat.add_mul]
    ring

variable {n : Nat} {err : String} {bytes piece : Bytes}

theorem ofBigEndian_bigEndian {width : Nat} (h : n < 256 ^ width) :
    ofBigEndian (bigEndian width n) = n := by
  rw [ofBigEndian, foldl_bigEndian, Nat.mod_eq_of_lt h]
  simp

theorem readFull_append {a rest : Bytes} (h : a.length = n) :
    readFull n err (a ++ rest) = .ok (a, rest) := by
  subst h
  simp [readFull]

def headerSize : Nat := 32

variable {encoded whole : Bytes} {ref chunk : AssetChunk} {aeadKey : Key} {path : String}
  {files' : Files} {start : Nat} {chunks : List AssetChunk} {pieces : List Bytes}
  {asset : AssetManifest}

theorem decodeChunk_encodeChunk {keyVersion : UInt32} {plainSize : Nat} {nonce ciphertext : Bytes}
    (h : encodeChunk keyVersion plainSize nonce ciphertext = .ok encoded)
    (hsize : 1 ≤ plainSize ∧ plainSize ≤ maxPlainChunk) (hnonce : nonce ≠ []) :
    decodeChunk encoded = .ok { keyVersion, plainSize, nonce, ciphertext } ∧
      encoded.length = headerSize + nonce.length + ciphertext.length := by
  unfold encodeChunk at h
  split at h
  · cases h
  rename_i hlimits
  obtain ⟨hn, hc⟩ := not_or.mp hlimits
  cases h
  have hmagic : magic.toUTF8.toList.length = 8 := by decide +kernel
  have hpos : 0 < nonce.length := length_pos_iff.mpr hnonce
  have hplain : ofBigEndian (bigEndian 8 plainSize) = plainSize :=
    ofBigEndian_bigEndian (by unfold maxPlainChunk at hsize; omega)
  have hnonceLength : ofBigEndian (bigEndian 2 nonce.length) = nonce.length :=
    ofBigEndian_bigEndian (by omega)
  have hcipherLength : ofBigEndian (bigEndian 8 ciphertext.length) = ciphertext.length :=
    ofBigEndian_bigEndian (by unfold maxEncodedChunk at hc; omega)
  have hversion : UInt32.ofNat (ofBigEndian (bigEndian 4 keyVersion.toNat)) = keyVersion := by
    rw [ofBigEndian_bigEndian (by simpa using keyVersion.toNat_lt), UInt32.ofNat_toNat]
  have hformat : ofBigEndian (bigEndian 2 fileFormatVersion) = fileFormatVersion := by decide
  have hrange : ¬ (plainSize < 1 ∨ plainSize > maxPlainChunk) := by omega
  have hlengths : ¬ (nonce.length = 0 ∨ ciphertext.length > maxEncodedChunk) := by omega
  constructor
  · simp only [append_assoc, decodeChunk, readFull_append hmagic,
      readFull_append (length_bigEndian _ _), bind, Except.bind, hformat, hplain, hnonceLength,
      hcipherLength, hversion, ne_eq, not_true_eq_false, if_false, length_append, hrange,
      or_false, hlengths, take_left, drop_left]
    rfl
  · simp only [length_append, hmagic, length_bigEndian, headerSize]

theorem ofBigEndian_eq_ofDigits (bytes : Bytes) :
    ofBigEndian bytes = Nat.ofDigits 256 (bytes.reverse.map UInt8.toNat) := by
  rw [ofBigEndian, Nat.ofDigits_eq_foldr, foldr_map, foldr_reverse]
  congr 1
  funext n b
  simp only [Nat.cast_id]
  ring

theorem ofBigEndian_lt (bytes : Bytes) : ofBigEndian bytes < 256 ^ bytes.length := by
  have h := Nat.ofDigits_lt_base_pow_length (b := 256) (l := bytes.reverse.map UInt8.toNat)
    (by decide) (by simpa using fun b _ => b.toNat_lt)
  simpa [ofBigEndian_eq_ofDigits] using h

theorem bigEndian_ofBigEndian {width : Nat} (h : bytes.length = width) :
    bigEndian width (ofBigEndian bytes) = bytes := by
  have hvalue := ofBigEndian_bigEndian (h ▸ ofBigEndian_lt bytes)
  rw [ofBigEndian_eq_ofDigits, ofBigEndian_eq_ofDigits bytes] at hvalue
  have hdigits := Nat.ofDigits_inj_of_len_eq (b := 256) (by decide) (by simp [h])
    (by simpa using fun b _ => b.toNat_lt) (by simpa using fun b _ => b.toNat_lt) hvalue
  rw [ofBigEndian_eq_ofDigits]
  exact reverse_injective
    (map_injective_iff.mpr (fun _ _ => UInt8.toNat_inj.mp) hdigits)

theorem readFull_bind_ok {β : Type} {b : β} {next : Bytes × Bytes → Except String β}
    (h : readFull n err bytes >>= next = .ok b) :
    ∃ value rest, value < 256 ^ n ∧ bytes = bigEndian n value ++ rest ∧
      next (bigEndian n value, rest) = .ok b := by
  unfold readFull at h
  split at h
  · cases h
  · have hlength : (bytes.take n).length = n := by
      rw [length_take]
      omega
    refine ⟨ofBigEndian (bytes.take n), bytes.drop n, ?_, ?_, ?_⟩
    · simpa only [hlength] using ofBigEndian_lt (bytes.take n)
    · rw [bigEndian_ofBigEndian hlength, take_append_drop]
    · rw [bigEndian_ofBigEndian hlength]
      exact h

def nonceLengthField (encoded : Bytes) : Nat := ofBigEndian ((encoded.drop 22).take 2)

theorem encodeChunk_of_decodeChunk {f : Frame} (h : decodeChunk encoded = .ok f) :
    f.nonce.length = nonceLengthField encoded ∧
      encodeChunk f.keyVersion f.plainSize f.nonce f.ciphertext =
        if f.nonce.length > 255 then .error "chunk encoding limit exceeded" else .ok encoded := by
  unfold decodeChunk at h
  obtain ⟨magicBytes, rest, -, rfl, h₁⟩ := readFull_bind_ok h
  dsimp only at h₁
  split at h₁
  · cases h₁
  rename_i hmagic
  obtain ⟨format, rest, hformat, rfl, h₂⟩ := readFull_bind_ok h₁
  simp only [ofBigEndian_bigEndian hformat] at h₂
  split at h₂
  · cases h₂
  rename_i hversion
  obtain ⟨keyVersion, rest, hkeyVersion, rfl, h₃⟩ := readFull_bind_ok h₂
  obtain ⟨plainSize, rest, hplainSize, rfl, h₄⟩ := readFull_bind_ok h₃
  simp only [ofBigEndian_bigEndian hkeyVersion, ofBigEndian_bigEndian hplainSize] at h₄
  split at h₄
  · cases h₄
  obtain ⟨nonceLength, rest, hnonceLength, rfl, h₅⟩ := readFull_bind_ok h₄
  obtain ⟨ciphertextLength, rest, hciphertextLength, rfl, h₆⟩ := readFull_bind_ok h₅
  simp only [ofBigEndian_bigEndian hnonceLength, ofBigEndian_bigEndian hciphertextLength] at h₆
  split at h₆
  · cases h₆
  rename_i hlengths
  cases h₆
  have hnonce : (rest.take nonceLength).length = nonceLength := by
    rw [length_take]
    omega
  have hciphertext : (rest.drop nonceLength).length = ciphertextLength := by
    rw [length_drop]
    omega
  have hlimit : ¬ ciphertextLength > maxEncodedChunk := by omega
  refine ⟨hnonce.trans ?_, ?_⟩
  · simp [nonceLengthField, drop_append, drop_eq_nil_of_le, ofBigEndian_bigEndian hnonceLength]
  · rw [encodeChunk, hnonce, hciphertext, UInt32.toNat_ofNat_of_lt' hkeyVersion,
      ← not_ne_iff.mp hmagic, ← not_ne_iff.mp hversion]
    simp only [hlimit, or_false, append_assoc, take_append_drop]

theorem chunk_frame_codec (keyVersion : UInt32) (plainSize : Nat) (nonce ciphertext encoded : Bytes)
    (f : Frame) :
    (1 ≤ plainSize → plainSize ≤ maxPlainChunk → 1 ≤ nonce.length → nonce.length ≤ 255 →
      ciphertext.length ≤ maxEncodedChunk →
      ∃ encoded, encodeChunk keyVersion plainSize nonce ciphertext = .ok encoded ∧
        decodeChunk encoded = .ok { keyVersion, plainSize, nonce, ciphertext }) ∧
    (decodeChunk encoded = .ok f →
      (encodeChunk f.keyVersion f.plainSize f.nonce f.ciphertext = .ok encoded ↔
        nonceLengthField encoded ≤ 255)) := by
  constructor
  · intro hmin hmax hnonce hshort hcipher
    obtain ⟨encoded, hencoded⟩ :
        ∃ encoded, encodeChunk keyVersion plainSize nonce ciphertext = .ok encoded := by
      rw [encodeChunk, if_neg (by omega)]
      exact ⟨_, rfl⟩
    exact ⟨encoded, hencoded, (decodeChunk_encodeChunk hencoded ⟨hmin, hmax⟩
      (length_pos_iff.mp hnonce)).1⟩
  · intro h
    obtain ⟨hlength, hencode⟩ := encodeChunk_of_decodeChunk h
    rw [hencode, ← hlength]
    split <;> simp <;> omega

def longNonceFrame : Bytes :=
  magic.toUTF8.toList ++ bigEndian 2 fileFormatVersion ++ bigEndian 4 1 ++ bigEndian 8 1 ++
    bigEndian 2 256 ++ bigEndian 8 0 ++ List.replicate 256 0

theorem decoder_accepts_long_nonce : ∃ f, decodeChunk longNonceFrame = .ok f ∧
    encodeChunk f.keyVersion f.plainSize f.nonce f.ciphertext =
      .error "chunk encoding limit exceeded" :=
  ⟨⟨1, 1, List.replicate 256 0, []⟩, by decide +kernel, by decide +kernel⟩

variable {p : AssetPrimitives} {keys : KeySource} {workloadID : String} {keyVersion : UInt32}
  {dataKey plaintext : Bytes} {sequence : Nat} {nonce : Nonce}

structure Sealed (p : AssetPrimitives) (nonce : Nonce) (workloadID : String) (keyVersion : UInt32)
    (dataKey : Bytes) (sequence : Nat) (plaintext encoded : Bytes) (ref : AssetChunk)
    (aeadKey : Key) : Prop where
  address : address p.toChunkPrimitives dataKey workloadID plaintext = .ok ref.address
  derives : derive p.toPrimitives dataKey workloadID "checkpoint-chunk" = .ok aeadKey
  encodes : encodeChunk keyVersion plaintext.length nonce.val
    (p.gcmSeal aeadKey nonce (p.zstdEncode plaintext)
      (chunkAAD workloadID ref.address keyVersion plaintext.length)) = .ok encoded
  ref_eq : ref = freshRef p ref.address keyVersion sequence plaintext encoded

theorem sealChunk_ok (h : sealChunk p nonce workloadID keyVersion dataKey sequence plaintext =
      .ok (encoded, ref)) :
    ∃ aeadKey, Sealed p nonce workloadID keyVersion dataKey sequence plaintext encoded ref
      aeadKey := by
  unfold sealChunk at h
  cases haddress : address p.toChunkPrimitives dataKey workloadID plaintext with
  | error e => simp [haddress, bind, Except.bind] at h
  | ok contentAddress =>
    cases hkey : derive p.toPrimitives dataKey workloadID "checkpoint-chunk" with
    | error e =>
      cases e <;> simp [haddress, encrypt, hkey, keyMessage, bind, Except.bind] at h
    | ok aeadKey =>
      simp only [haddress, encrypt, hkey, keyMessage, bind, Except.bind, pure, Except.pure] at h
      split at h
      · cases h
      · rename_i found hencode
        cases h
        exact ⟨aeadKey, ⟨haddress, hkey, hencode, rfl⟩⟩

theorem decompress_zstdEncode (h : 1 ≤ plaintext.length ∧ plaintext.length ≤ maxPlainChunk) :
    decompress p.toChunkPrimitives (p.zstdEncode plaintext) plaintext.length =
      .ok (plaintext, .zstd) := by
  have hrange : ¬ (plaintext.length < 1 ∨ plaintext.length > maxPlainChunk) := by omega
  simp only [decompress, hrange, if_false, p.zstd_magic, if_true, p.zstd_decode plaintext h.2,
    ne_eq, not_true_eq_false]

section

variable (h : Sealed p nonce workloadID keyVersion dataKey sequence plaintext encoded ref aeadKey)
  (hsize : 1 ≤ plaintext.length ∧ plaintext.length ≤ maxPlainChunk)

include h hsize

theorem Sealed.length_le : 1 ≤ encoded.length ∧ encoded.length ≤ maxEncodedChunk := by
  have hnonce : nonce.val ≠ [] := ne_nil_of_length_pos (by rw [nonce.property]; decide)
  rw [(decodeChunk_encodeChunk h.encodes hsize hnonce).2, p.gcmSeal_length, nonce.property]
  have hzstd := p.zstd_length plaintext hsize.2
  simp only [headerSize, nonceSize, tagSize, maxPlainChunk, maxEncodedChunk] at *
  omega

theorem Sealed.verifyBytes (hkey : keys workloadID keyVersion = .ok dataKey) :
    verifyBytes p.toChunkPrimitives keys workloadID ref.toChunkRef encoded =
      .ok (plaintext, .zstd) := by
  have hnonce : nonce.val ≠ [] := ne_nil_of_length_pos (by rw [nonce.property]; decide)
  obtain ⟨hdecode, -⟩ := decodeChunk_encodeChunk h.encodes hsize hnonce
  have hlength := h.length_le hsize
  have hdecrypt : decryptChunk p.toChunkPrimitives dataKey workloadID nonce.val
      (p.gcmSeal aeadKey nonce (p.zstdEncode plaintext)
        (chunkAAD workloadID ref.address keyVersion plaintext.length))
      (chunkAAD workloadID ref.address keyVersion plaintext.length) =
        .ok (p.zstdEncode plaintext) := by
    simp [decryptChunk, decrypt, h.derives, keyMessage, bind, Except.bind, nonce.property,
      p.gcmOpen_gcmSeal, pure, Except.pure]
  have hsizes : ¬ ((encoded.length : Int) ≠ ref.storedSize ∨ encoded.length > maxEncodedChunk) := by
    rw [h.ref_eq]
    simp only [freshRef, ne_eq, not_true_eq_false, false_or]
    omega
  have hheader : ¬ (keyVersion ≠ ref.keyVersion ∨ (plaintext.length : Int) ≠ ref.plainSize) := by
    rw [h.ref_eq]
    simp [freshRef]
  have hcipher : p.sha256 encoded = ref.cipherSHA256 := by rw [h.ref_eq]; rfl
  have hplain : p.sha256 plaintext = ref.plainSHA256 := by rw [h.ref_eq]; rfl
  simp only [Chunkstore.verifyBytes, hsizes, if_false, hcipher, ne_eq, not_true_eq_false, bind,
    Except.bind, hdecode, hheader, hkey, keyMessage, hdecrypt, decompress_zstdEncode hsize, hplain,
    h.address]
  rfl

end

/-! ### What a put leaves on disk -/

def Extends (files files' : Files) : Prop :=
  ∀ path bytes, files.get path = some bytes → files'.get path = some bytes

theorem Extends.trans {a b c : Files} (h : Extends a b) (h' : Extends b c) : Extends a c :=
  fun path bytes hget => h' path bytes (h path bytes hget)

theorem extends_set {files : Files} (h : files.get path = none) :
    Extends files (files.set path bytes) := by
  intro other stored hget
  rw [FileTable.get_set]
  split
  · rename_i heq
    rw [heq, h] at hget
    cases hget
  · exact hget

theorem extends_raced (race : Option Bytes) (path : String) (files : Files) :
    Extends files (raced race path files) := by
  unfold raced
  split
  · rename_i hnone
    exact extends_set hnone
  · exact fun _ _ h => h

def Held (p : AssetPrimitives) (keys : KeySource) (files : Files) (workloadID : String)
    (chunk : AssetChunk) (plaintext : Bytes) : Prop :=
  verifyChunk p.toChunkPrimitives keys files workloadID chunk.toChunkRef =
      .ok (plaintext, chunk.compression) ∧
    chunk.plainSize = plaintext.length

theorem Held.extend {files : Files} (h : Held p keys files workloadID chunk plaintext)
    (hext : Extends files files') : Held p keys files' workloadID chunk plaintext := by
  refine ⟨?_, h.2⟩
  have hv := h.1
  rw [verifyChunk_eq] at hv ⊢
  split_ifs at hv ⊢
  cases hpath : chunkPath chunk.toChunkRef with
  | error e => simp [hpath] at hv
  | ok path =>
    cases hget : files.get path with
    | none => simp [hpath, hget] at hv
    | some encoded =>
      simp only [hpath, hget] at hv
      simp only [hext path encoded hget]
      exact hv

structure Placed (p : AssetPrimitives) (keys : KeySource) (files : Files) (workloadID : String)
    (sequence : Nat) (plaintext : Bytes) (chunk : AssetChunk) : Prop where
  held : Held p keys files workloadID chunk plaintext
  sequence : chunk.sequence = sequence

theorem existingRef_ok {files : Files} {reference : AssetChunk}
    (h : existingRef p keys files workloadID reference plaintext = .ok chunk)
    (hsize : reference.plainSize = plaintext.length) (hseq : reference.sequence = sequence) :
    Placed p keys files workloadID sequence plaintext chunk := by
  unfold existingRef at h
  cases hpath : chunkPath reference.toChunkRef with
  | error e => simp [hpath, bind, Except.bind] at h
  | ok path =>
    cases hget : files.get path with
    | none => simp [hpath, hget, bind, Except.bind] at h
    | some encoded =>
      simp only [hpath, hget, bind, Except.bind] at h
      split at h
      · cases h
      · rename_i found codec hverify
        split at h
        · cases h
        · rename_i hsame
          cases h
          have hfound : found = plaintext := not_not.mp hsame
          subst hfound
          exact ⟨⟨hverify, hsize⟩, hseq⟩

variable {faults : PutFaults} {race : Option Bytes} {files : Files}

def stores (p : AssetPrimitives) (keys : KeySource) (files : Files) (workloadID : String)
    (sequence : Nat) (plaintext : Bytes) : Post Files String (AssetChunk × Bool) where
  ok := fun result files' => Extends files files' ∧
    Placed p keys files' workloadID sequence plaintext result.1
  error := fun _ _ => True
  crash := fun _ => True

theorem wp_linkChunk (hsize : ref.plainSize = plaintext.length) (hseq : ref.sequence = sequence)
    (hfresh : ∀ files' : Files, files'.get path = some encoded →
      Held p keys files' workloadID ref plaintext) :
    wp (linkChunk p keys faults race workloadID ref plaintext encoded path)
      (stores p keys files workloadID sequence plaintext) files := by
  unfold linkChunk
  refine wp_skip ?_ trivial trivial
  refine wp_skip ?_ trivial trivial
  refine wp_skip ?_ trivial trivial
  refine wp_skip ?_ trivial trivial
  refine wp_skip ?_ trivial trivial
  refine wp_skip ?_ trivial trivial
  simp only [wp_bind, wp_modify, wp_get]
  have hraced := extends_raced race path files
  cases hget : (raced race path files).get path with
  | some stored =>
    simp only
    refine wp_skip ?_ trivial trivial
    rw [wp_bind]
    cases hexisting : existingRef p keys (raced race path files) workloadID ref plaintext with
    | error e => trivial
    | ok existing => exact ⟨hraced, existingRef_ok hexisting hsize hseq⟩
  | none =>
    simp only [wp_bind, wp_effect]
    refine ⟨fun _ => ?_, fun _ => trivial, fun _ => trivial⟩
    exact ⟨hraced.trans (extends_set hget), hfresh _ (FileTable.get_set_same _ _ _), hseq⟩

theorem wp_putChunk (hsize : 1 ≤ plaintext.length ∧ plaintext.length ≤ maxPlainChunk)
    (hkey : keys workloadID keyVersion = .ok dataKey) :
    wp (putChunk p keys faults nonce race workloadID keyVersion dataKey sequence plaintext)
      (stores p keys files workloadID sequence plaintext) files := by
  simp only [putChunk, wp_bind]
  refine wp_liftExcept (fun result hseal => ?_) fun _ => trivial
  obtain ⟨encoded, ref⟩ := result
  obtain ⟨aeadKey, hs⟩ := sealChunk_ok hseal
  have hplain : ref.plainSize = plaintext.length := by rw [hs.ref_eq]; rfl
  have hseq : ref.sequence = sequence := by rw [hs.ref_eq]; rfl
  simp only [wp_bind]
  cases hpath : chunkPath ref.toChunkRef with
  | error e => trivial
  | ok path =>
    -- A file with the sealed bytes is read back, whatever else is on disk.
    have hfresh : ∀ files' : Files, files'.get path = some encoded →
        Held p keys files' workloadID ref plaintext := by
      intro files' hget
      have hlength := hs.length_le hsize
      have hstored : ref.storedSize = encoded.length := by rw [hs.ref_eq]; rfl
      have hcodec : ref.compression = .zstd := by rw [hs.ref_eq]; rfl
      refine ⟨?_, hplain⟩
      rw [verifyChunk_eq, hplain, hstored, if_neg (by omega), if_neg (by omega), hpath, hcodec]
      simp only [hget]
      exact hs.verifyBytes hsize hkey
    have hlink : wp (linkChunk p keys faults race workloadID ref plaintext encoded path)
        (stores p keys files workloadID sequence plaintext) files :=
      wp_linkChunk hplain hseq hfresh
    rw [wp_liftExcept_ok]
    refine wp_skip ?_ trivial trivial
    simp only [wp_bind, wp_get]
    cases hget : files.get path with
    | none => exact hlink
    | some stored =>
      simp only [wp_ite]
      refine ⟨fun _ => ?_, fun _ => hlink⟩
      cases hexisting : existingRef p keys files workloadID ref plaintext with
      | error e => trivial
      | ok existing => exact ⟨fun _ _ h => h, existingRef_ok hexisting hplain hseq⟩

/-- As a buffer of `size` bytes cuts: full but for the last, none empty. -/
structure Cut (size : Nat) (pieces : List Bytes) : Prop where
  sizes : ∀ piece ∈ pieces, 0 < piece.length ∧ piece.length ≤ size
  full : ∀ piece ∈ pieces.dropLast, piece.length = size

def Stored (p : AssetPrimitives) (keys : KeySource) (files : Files) (workloadID : String) :
    Nat → List AssetChunk → List Bytes → Prop
  | _, [], [] => True
  | start, chunk :: chunks, piece :: pieces =>
    Placed p keys files workloadID start piece chunk ∧
      Stored p keys files workloadID (start + 1) chunks pieces
  | _, _, _ => False

theorem Stored.extend (hext : Extends files files')
    (h : Stored p keys files workloadID start chunks pieces) :
    Stored p keys files' workloadID start chunks pieces := by
  induction chunks generalizing start pieces with
  | nil => cases pieces <;> exact h
  | cons chunk chunks ih =>
    cases pieces with
    | nil => exact h
    | cons piece pieces => exact ⟨⟨h.1.held.extend hext, h.1.sequence⟩, ih h.2⟩

section

variable (h : Stored p keys files workloadID start chunks pieces)

include h

theorem Stored.append (hnew : Placed p keys files workloadID (start + pieces.length) piece chunk) :
    Stored p keys files workloadID start (chunks ++ [chunk]) (pieces ++ [piece]) := by
  induction chunks generalizing start pieces with
  | nil =>
    cases pieces with
    | nil => exact ⟨hnew, trivial⟩
    | cons => exact h.elim
  | cons first chunks ih =>
    cases pieces with
    | nil => exact h.elim
    | cons firstPiece pieces =>
      refine ⟨h.1, ih h.2 ?_⟩
      rw [length_cons] at hnew
      rwa [show start + 1 + pieces.length = start + (pieces.length + 1) by omega]

theorem Stored.sequences :
    chunks.map (·.sequence) = (List.range' start chunks.length).map Int.ofNat := by
  induction chunks generalizing start pieces with
  | nil => rfl
  | cons chunk chunks ih =>
    cases pieces with
    | nil => exact h.elim
    | cons piece pieces =>
      rw [map_cons, length_cons, range'_succ, map_cons, ih h.2, h.1.sequence]
      rfl

theorem Stored.plainSizes :
    chunks.map (·.plainSize) = pieces.map fun piece => (piece.length : Int) := by
  induction chunks generalizing start pieces with
  | nil =>
    cases pieces with
    | nil => rfl
    | cons => exact h.elim
  | cons chunk chunks ih =>
    cases pieces with
    | nil => exact h.elim
    | cons piece pieces => rw [map_cons, map_cons, ih h.2, h.1.held.2]

end

structure PutDone (p : AssetPrimitives) (keys : KeySource) (size : ChunkSize) (files : Files)
    (workloadID : String) (bytes : Bytes) (asset : AssetManifest) (pieces : List Bytes) :
    Prop where
  stored : Stored p keys files workloadID 0 asset.chunks pieces
  joined : pieces.flatten = bytes
  cut : Cut size.val pieces
  plainSize : asset.plainSize = bytes.length
  sha256 : asset.sha256 = p.sha256 bytes

structure Putting (p : AssetPrimitives) (keys : KeySource) (size : ChunkSize) (files : Files)
    (workloadID : String) (asset : AssetManifest) (whole : Bytes) (pieces : List Bytes) :
    Prop where
  stored : Stored p keys files workloadID 0 asset.chunks pieces
  joined : pieces.flatten = whole
  full : ∀ piece ∈ pieces, piece.length = size.val
  plainSize : asset.plainSize = whole.length

theorem ChunkSize.pos (size : ChunkSize) : 0 < size.val :=
  Nat.lt_of_lt_of_le (by decide) size.min_le

theorem Putting.stop {size : ChunkSize}
    (h : Putting p keys size files workloadID asset whole pieces) :
    PutDone p keys size files workloadID whole { asset with sha256 := p.sha256 whole } pieces := by
  refine ⟨h.stored, h.joined, ⟨fun piece hp => ?_, fun piece hp => ?_⟩, h.plainSize, rfl⟩
  · rw [h.full piece hp]
    exact ⟨size.pos, Nat.le_refl _⟩
  · exact h.full piece (mem_of_mem_dropLast hp)

theorem Putting.add {size : ChunkSize} (h : Putting p keys size files workloadID asset whole pieces)
    (hext : Extends files files')
    (hnew : Placed p keys files' workloadID pieces.length piece chunk) :
    Stored p keys files' workloadID 0 (asset.add chunk).chunks (pieces ++ [piece]) ∧
      (pieces ++ [piece]).flatten = whole ++ piece ∧
      (asset.add chunk).plainSize = (whole ++ piece).length := by
  refine ⟨(h.stored.extend hext).append (by simpa using hnew), by simp [h.joined], ?_⟩
  rw [AssetManifest.add, h.plainSize, hnew.held.2]
  simp

theorem wp_putChunks {size : ChunkSize} {world : PutWorld} {reader : Bytes} {deduplicated : Int}
    (hkey : keys workloadID keyVersion = .ok dataKey) (hseq : sequence = pieces.length)
    (h : Putting p keys size files workloadID asset whole pieces) :
    wp (putChunks p keys size world workloadID keyVersion dataKey asset whole deduplicated sequence
        reader)
      { ok := fun result files' => ∃ pieces',
          PutDone p keys size files' workloadID (whole ++ reader) result.asset pieces'
        error := fun _ _ => True
        crash := fun _ => True } files := by
  -- Each turn takes a full buffer off the stream.
  induction hn : reader.length using Nat.strong_induction_on generalizing reader asset whole
    deduplicated pieces sequence files with
  | _ n ih =>
    rw [putChunks]
    refine wp_skip ?_ trivial trivial
    refine wp_skip ?_ trivial trivial
    by_cases hempty : reader = []
    · subst hempty
      rw [dif_pos rfl, append_nil]
      exact ⟨pieces, h.stop⟩
    rw [dif_neg hempty]
    have hpos : 0 < reader.length := length_pos_iff.mpr hempty
    have hsizePos := size.pos
    have hsizeMax : size.val ≤ maxPlainChunk := size.le_max
    have htake : (reader.take size.val).length = min size.val reader.length := length_take
    have hpiece : 1 ≤ (reader.take size.val).length ∧
        (reader.take size.val).length ≤ maxPlainChunk := by omega
    simp only [wp_bind, wp_mapError]
    refine wp_mono (wp_putChunk hpiece hkey) ?_ (fun _ _ _ => trivial) fun _ _ => trivial
    rintro ⟨chunk, existed⟩ files' ⟨hext, hplaced⟩
    rw [hseq] at hplaced
    obtain ⟨hstored, hwhole, hplain⟩ := h.add hext hplaced
    simp only [wp_ite]
    constructor
    · -- The buffer was not filled, so the stream is read to its end.
      intro hshort
      have hall : reader.take size.val = reader := take_of_length_le (by omega)
      rw [hall] at hstored hwhole hplain ⊢
      refine ⟨pieces ++ [reader], hstored, hwhole, ⟨fun piece hp => ?_, fun piece hp => ?_⟩, hplain,
        rfl⟩
      · rcases mem_append.mp hp with hp | hp
        · rw [h.full piece hp]
          exact ⟨hsizePos, Nat.le_refl _⟩
        · rw [mem_singleton.mp hp]
          omega
      · rw [dropLast_concat] at hp
        exact h.full piece hp
    · intro hfull
      have hdrop : whole ++ reader = whole ++ reader.take size.val ++ reader.drop size.val := by
        rw [append_assoc, take_append_drop]
      rw [hdrop]
      refine ih _ ?_ (by simp [hseq]) ⟨hstored, hwhole, fun piece hp => ?_, hplain⟩ rfl
      · rw [length_drop]
        omega
      · rcases mem_append.mp hp with hp | hp
        · exact h.full piece hp
        · rw [mem_singleton.mp hp]
          omega

theorem restoreChunks_of_stored (name : String) (written : Bytes)
    (h : Stored p keys files workloadID start chunks pieces) :
    restoreChunks p.toChunkPrimitives keys files workloadID name start chunks written =
      .ok pieces.flatten (written ++ pieces.flatten) := by
  induction chunks generalizing start pieces written with
  | nil =>
    cases pieces with
    | nil => simp [restoreChunks, pure, Program.pure]
    | cons => exact h.elim
  | cons chunk chunks ih =>
    cases pieces with
    | nil => exact h.elim
    | cons piece pieces =>
      have hv := h.1.held.1
      simp only [restoreChunks, h.1.sequence, ne_eq, not_true_eq_false, if_false, bind,
        Program.bind, Program.mapError, hv, Program.liftExcept, pure, Program.pure, Program.modify,
        ih _ h.2, flatten_cons, append_assoc]

theorem insertionSort_of_stored (h : Stored p keys files workloadID 0 chunks pieces) :
    chunks.insertionSort (·.sequence ≤ ·.sequence) = chunks := by
  refine Pairwise.insertionSort_eq ?_
  have hsorted : (chunks.map (·.sequence)).Pairwise (· ≤ ·) := by
    rw [h.sequences]
    refine pairwise_map.mpr (List.Pairwise.imp ?_ pairwise_lt_range')
    intro a b hab
    exact Int.ofNat_le.mpr (Nat.le_of_lt hab)
  exact pairwise_map.mp hsorted

theorem PutDone.restore {size : ChunkSize} {written : Bytes}
    (h : PutDone p keys size files workloadID bytes asset pieces) :
    restoreAsset p.toChunkPrimitives keys files workloadID asset written =
      .ok () (written ++ bytes) := by
  have hrestore := restoreChunks_of_stored asset.name written h.stored
  rw [h.joined] at hrestore
  simp only [restoreAsset, insertionSort_of_stored h.stored, bind, Program.bind, hrestore,
    h.plainSize, h.sha256, ne_eq, not_true_eq_false, if_false]
  rfl

variable {size : ChunkSize} {keyWorld : KeyWorld} {world : PutWorld} {name mediaType : String}
  {required : Bool} {restoreOrder : Int}

/-- A put asset is restored byte for byte: for every set of chunk files, every key store that the
manager's calls reach, every admitted chunk size, and whatever the world does. The chunks are
numbered from zero and cut the bytes into pieces that are all full but the last. -/
theorem put_asset_restores {wrapKey : Option Key} {r : KeyRun} {m : Manager} {s : Shelf}
    {bytes : Bytes} {result : PutResult}
    (hreach : Reachable (KeyRun.step p.toPrimitives wrapKey) .init r)
    (hput : putAsset p size keyWorld world workloadID name mediaType bytes required restoreOrder
      ⟨files, ⟨r.disk, m⟩⟩ = .ok result s) :
    (∀ written, restoreAsset p.toChunkPrimitives (workloadKey p.toPrimitives s.keys) s.files
        workloadID result.asset written = .ok () (written ++ bytes)) ∧
      result.asset.plainSize = bytes.length ∧
      result.asset.chunks.map (·.sequence) =
        (List.range result.asset.chunks.length).map Int.ofNat ∧
      ∃ pieces : List Bytes, pieces.flatten = bytes ∧
        result.asset.chunks.map (·.plainSize) = pieces.map (fun piece => (piece.length : Int)) ∧
        (∀ piece ∈ pieces, 0 < piece.length ∧ piece.length ≤ size.val) ∧
        ∀ piece ∈ pieces.dropLast, piece.length = size.val := by
  have hdone : wp (putAsset p size keyWorld world workloadID name mediaType bytes required
      restoreOrder)
      { ok := fun result s => ∃ pieces,
          PutDone p (workloadKey p.toPrimitives s.keys) size s.files workloadID bytes result.asset
            pieces
        error := fun _ _ => True
        crash := fun _ => True } ⟨files, ⟨r.disk, m⟩⟩ := by
    rw [putAsset, wp_ite]
    refine ⟨fun _ => trivial, fun _ => ?_⟩
    simp only [wp_bind, wp_zoom, wp_mapError]
    refine wp_mono (wp_getOrCreateWorkloadKey_reads (s := ⟨r.disk, m⟩)
      (KeyRun.reachable_ordered hreach)) ?_ (fun _ _ _ => trivial) fun _ _ => trivial
    intro a t hkey
    simp only [wp_get, wp_zoom]
    have hlength : 0 = ([] : List Bytes).length := rfl
    exact wp_putChunks hkey hlength ⟨trivial, rfl, by simp, rfl⟩
  have hmeets := hdone.outcome
  rw [hput] at hmeets
  obtain ⟨pieces, hdone⟩ := hmeets
  refine ⟨fun written => hdone.restore, hdone.plainSize, ?_, pieces, hdone.joined,
    hdone.stored.plainSizes, hdone.cut.sizes, hdone.cut.full⟩
  rw [hdone.stored.sequences, range_eq_range']

/-! ### A chunk found in an older codec -/

def clearPrimitives : AssetPrimitives where
  hkdf dataKey _ _ :=
    if h : dataKey.length = keySize then ⟨dataKey, h⟩ else ⟨List.replicate keySize 0, .refl keySize⟩
  gcmSeal key _ plaintext _ := key.val.take tagSize ++ plaintext
  gcmOpen key _ ciphertext _ :=
    if ciphertext.take tagSize = key.val.take tagSize then some (ciphertext.drop tagSize) else none
  digest workloadID := workloadID
  gcmOpen_gcmSeal key nonce plaintext aad := by
    have hlength : (key.val.take tagSize).length = tagSize := by
      rw [length_take, key.property]
      rfl
    rw [take_left' hlength, drop_left' hlength, if_pos rfl]
  sha256 bytes := String.ofList (bytes.map Char.ofUInt8)
  hmac _ _ := String.ofList (List.replicate 64 '0')
  zstdDecode compressed := some (compressed.drop 4)
  gzipRead compressed limit := some ((compressed.drop 2).take limit)
  zstdEncode plaintext := zstdFrameMagic ++ plaintext
  gcmSeal_length key _ plaintext _ := by
    rw [length_append, length_take, key.property, Nat.add_comm]
    rfl
  zstd_magic plaintext := by simp [zstdFrameMagic]
  zstd_length plaintext _ := by
    rw [length_append, Nat.add_comm]
    exact Nat.add_le_add_left (by decide) _
  zstd_decode plaintext _ := by simp [zstdFrameMagic]

def keyedCalls : List KeyCall :=
  [.reopen .none true (sampleKey 1) sampleNonce, .getOrCreate .none (sampleKey 7) sampleNonce "w"]

def keyedRun : KeyRun :=
  (exec (KeyRun.step clearPrimitives.toPrimitives none) .init keyedCalls).getD .init

def keyedManager : Manager :=
  keyedRun.manager.getD { keyring := { formatVersion := 0, activeVersion := 0, keys := [] },
                          wrapKey := none }

def gzipChunk : Bytes :=
  let ciphertext := List.replicate tagSize 7 ++ gzipFrameMagic ++ [9]
  ((encodeChunk 1 1 sampleNonce.val ciphertext).toOption).getD []

def gzipFiles : Files :=
  FileTable.empty.set ("chunks/v1/00/" ++ String.ofList (List.replicate 64 '0') ++ ".chunk")
    gzipChunk

def noPutFaults : PutFaults where
  context := .none
  read := .none
  stat := .none
  mkdir := .none
  createTemp := .none
  chmod := .none
  write := .none
  sync := .none
  close := .none
  link := .none

def quietWorld : PutWorld where
  faults := fun _ => noPutFaults
  nonces := fun _ => sampleNonce
  races := fun _ => none

def smallChunks : ChunkSize := ⟨64 * 2 ^ 10, by decide, by decide⟩

def samplePut : Outcome Shelf String PutResult :=
  putAsset clearPrimitives smallChunks ⟨.none, sampleKey 0, sampleNonce⟩ quietWorld "w" "memory"
    "application/octet-stream" [9] true 0 ⟨gzipFiles, ⟨keyedRun.disk, keyedManager⟩⟩

/-- The put names the codec of the file it found, and the asset is restored from it. -/
theorem gzip_chunk_restores :
    ∃ result s, samplePut = .ok result s ∧
      result.asset.chunks.map (·.compression) = [.gzip] ∧
      restoreAsset clearPrimitives.toChunkPrimitives
        (workloadKey clearPrimitives.toPrimitives s.keys) s.files "w" result.asset [] =
          .ok () [9] := by
  have hreach : Reachable (KeyRun.step clearPrimitives.toPrimitives none) .init keyedRun :=
    ⟨keyedCalls, by decide⟩
  obtain ⟨result, s, hput, hcodec⟩ : ∃ result s, samplePut = .ok result s ∧
      result.asset.chunks.map (·.compression) = [.gzip] := by decide +kernel
  exact ⟨result, s, hput, hcodec, (put_asset_restores hreach hput).1 []⟩

end Shiftgate.Chunkstore
