import Shiftgate.Checkpoint.MirrorUpload
import Shiftgate.Chunkstore.Import

/-! The round trip through the mirror. A machine that downloaded a checkpoint has encrypted it anew,
so its own upload meets the object store's refusal to replace an object. -/

namespace Shiftgate.Checkpoint.Mirrors

open Library Securestore Chunkstore Checkpoint.Manifests List Repository.Sample FileTable
  Checkpoint.Repository
open Objectstore (ObjectInfo PartInfo maxObjectSize validateKey)

variable {c : MirrorCodec}

/-! ### Imports that nothing disturbs -/

section Imports

variable {p : ChunkPrimitives} {keys : KeySource} {files : Files} {workloadID : String}
  {ref : ChunkRef} {bytes : Bytes} {path : String}

theorem sizesInRange_of_verifies (h : verifies p keys files workloadID ref = true) :
    ¬ (ref.storedSize < 1 ∨ ref.storedSize > maxEncodedChunk) ∧
      ¬ (ref.plainSize < 1 ∨ ref.plainSize > maxPlainChunk) := by
  unfold verifies at h
  rw [verifyChunk_eq] at h
  split at h
  · cases h
  · rename_i hplain
    split at h
    · cases h
    · rename_i hstored
      exact ⟨hstored, hplain⟩

theorem verifies_size (h : verifies p keys files workloadID ref = true)
    (hpath : chunkPath ref = .ok path) (hget : files.get path = some bytes) :
    (bytes.length : Int) = ref.storedSize := by
  obtain ⟨hstored, hplain⟩ := sizesInRange_of_verifies h
  unfold verifies at h
  rw [verifyChunk_eq, if_neg hplain, if_neg hstored, hpath] at h
  simp only [hget] at h
  by_contra hne
  unfold verifyBytes at h
  rw [if_pos (.inl hne)] at h
  cases h

theorem stageUpload_quiet (hsize : (bytes.length : Int) = ref.storedSize)
    (hdigest : p.sha256 bytes = ref.cipherSHA256) :
    stageUpload p quietImport ref bytes files = .ok () files := by
  unfold stageUpload
  refine Program.bind_eq_ok.mpr ⟨(), files, rfl, ?_⟩
  refine Program.bind_eq_ok.mpr ⟨(), files, rfl, ?_⟩
  refine Program.bind_eq_ok.mpr ⟨(), files, rfl, ?_⟩
  refine Program.bind_eq_ok.mpr ⟨(), files, rfl, ?_⟩
  rw [if_neg (not_not.mpr hsize), if_neg (not_not.mpr hdigest)]
  exact Program.bind_eq_ok.mpr ⟨(), files, rfl, rfl⟩

theorem verifyImported_quiet {isNew : Bool} (h : verifies p keys files workloadID ref = true) :
    verifyImported p keys quietImport workloadID ref path isNew files = .ok isNew files := by
  unfold verifyImported
  rw [Program.get_bind_apply]
  unfold verifies at h
  cases hv : verifyChunk p keys files workloadID ref with
  | ok found => rfl
  | error e =>
    rw [hv] at h
    cases h

theorem importChunkResult_present (h : verifies p keys files workloadID ref = true)
    (upload : Bytes) :
    importChunkResult p keys quietImport workloadID ref upload files = .ok false files := by
  obtain ⟨hstored, hplain⟩ := sizesInRange_of_verifies h
  obtain ⟨path, bytes, hpath, hget, -⟩ := verifies_file h
  unfold importChunkResult
  rw [if_neg hstored, if_neg hplain]
  refine Program.lift_bind_eq_ok.mpr ⟨path, hpath, ?_⟩
  refine Program.bind_eq_ok.mpr ⟨(), files, rfl, ?_⟩
  rw [Program.get_bind_apply]
  simp only [hget]
  rw [if_pos ⟨verifies_size h hpath hget, h⟩]
  rfl

theorem importChunkResult_quiet (hpath : chunkPath ref = .ok path)
    (h : verifies p keys (files.set path bytes) workloadID ref = true)
    (habsent : verifies p keys files workloadID ref = false) :
    ∃ isNew, importChunkResult p keys quietImport workloadID ref bytes files =
      .ok isNew (files.set path bytes) := by
  obtain ⟨hstored, hplain⟩ := sizesInRange_of_verifies h
  have hsize := verifies_size h hpath (get_set_same ..)
  have hdigest : p.sha256 bytes = ref.cipherSHA256 := by
    obtain ⟨path', bytes', hpath', hget, hdigest⟩ := verifies_file h
    cases hpath.symm.trans hpath'
    rw [get_set_same] at hget
    cases hget
    exact hdigest
  unfold importChunkResult
  rw [if_neg hstored, if_neg hplain]
  refine ⟨(files.get path).isNone, Program.lift_bind_eq_ok.mpr ⟨path, hpath, ?_⟩⟩
  refine Program.bind_eq_ok.mpr ⟨(), files, rfl, ?_⟩
  rw [Program.get_bind_apply]
  cases hget : files.get path with
  | none =>
    refine Program.bind_eq_ok.mpr ⟨(), files, stageUpload_quiet hsize hdigest, ?_⟩
    exact Program.bind_eq_ok.mpr ⟨(), _, rfl, verifyImported_quiet h⟩
  | some stored =>
    simp only [habsent, Bool.false_eq_true, and_false, if_false]
    refine Program.bind_eq_ok.mpr ⟨(), files, stageUpload_quiet hsize hdigest, ?_⟩
    refine Program.bind_eq_ok.mpr ⟨(), files, rfl, ?_⟩
    exact Program.bind_eq_ok.mpr ⟨(), _, rfl, verifyImported_quiet h⟩

end Imports

section Downloads

variable {keys : KeySource} {workloadID : String} {ref ref' : ChunkRef} {files : Files}

theorem toString_injective {v w : UInt32} (h : (toString v).toList = (toString w).toList) :
    v = w := by
  have hdigits : ∀ u : UInt32, (toString u).toList = Nat.toDigits 10 u.toNat := by
    intro u
    show (toString u.toNat).toList = _
    simp
  rw [hdigits, hdigits] at h
  have hnumbers := congrArg (fun digits => Nat.ofDigitChars 10 digits 0) h
  simp only [Nat.ofDigitChars_toDigits (b := 10) (by decide) (by decide)] at hnumbers
  exact UInt32.toNat_inj.mp hnumbers

theorem chunkPath_injective {path : String} (h : chunkPath ref = .ok path)
    (h' : chunkPath ref' = .ok path) :
    ref.keyVersion = ref'.keyVersion ∧ ref.address = ref'.address := by
  unfold chunkPath at h h'
  split at h
  · cases h
  · split at h'
    · cases h'
    · rename_i hlength hlength'
      rw [not_or, not_not] at hlength hlength'
      have hsame : ref.address.toList.length = ref'.address.toList.length := by
        rw [String.length_toList, String.length_toList, hlength.1, hlength'.1]
      have hpaths := congrArg String.toList ((Except.ok.inj h).trans (Except.ok.inj h').symm)
      simp only [String.toList_append, String.toList_ofList] at hpaths
      obtain ⟨hpaths, -⟩ := append_inj' hpaths rfl
      obtain ⟨hpaths, haddress⟩ := append_inj' hpaths hsame
      obtain ⟨hpaths, -⟩ := append_inj' hpaths rfl
      obtain ⟨hpaths, -⟩ := append_inj' hpaths (by simp [hsame])
      obtain ⟨hpaths, -⟩ := append_inj' hpaths rfl
      obtain ⟨-, hversion⟩ := append_inj hpaths rfl
      exact ⟨toString_injective hversion, String.toList_injective haddress⟩

theorem chunkPath_eq (hversion : ref.keyVersion = ref'.keyVersion)
    (haddress : ref.address = ref'.address) : chunkPath ref = chunkPath ref' := by
  simp only [chunkPath, hversion, haddress]

def Sound (c : MirrorCodec) (keys : KeySource) (workloadID : String) (ref : ChunkRef) : Prop :=
  ∃ files, verifies c.toChunkPrimitives keys files workloadID ref = true

theorem Sound.verifies (h : Sound c keys workloadID ref) {path : String} {bytes : Bytes}
    (hpath : chunkPath ref = .ok path) (hget : files.get path = some bytes)
    (hdigest : c.equalFold (c.sha256 bytes) ref.cipherSHA256 = true) :
    verifies c.toChunkPrimitives keys files workloadID ref = true := by
  obtain ⟨files₀, hverify⟩ := h
  obtain ⟨path₀, bytes₀, hpath₀, hget₀, hdigest₀⟩ := verifies_file hverify
  cases hpath.symm.trans hpath₀
  rw [← hdigest₀] at hdigest
  have hsame := c.sha256_injective (c.equalFold_digest _ _ hdigest)
  rw [verifies_congr hpath (hget.trans (hsame ▸ hget₀.symm))]
  exact hverify

theorem missing_false {path : String} {bytes : Bytes} (hpath : chunkPath ref = .ok path)
    (hget : files.get path = some bytes) (hsize : (bytes.length : Int) = ref.storedSize)
    (hdigest : c.sha256 bytes = ref.cipherSHA256) : missing c files ref = .ok false := by
  simp only [missing, hpath, bind, Except.bind, hget]
  rw [if_neg (not_not.mpr hsize), hdigest]
  simp
  rfl

theorem missing_of_unsound {path : String} (hpath : chunkPath ref = .ok path)
    (hsound : Sound c keys workloadID ref)
    (h : verifies c.toChunkPrimitives keys files workloadID ref = false) :
    missing c files ref = .ok true := by
  simp only [missing, hpath, bind, Except.bind]
  cases hget : files.get path with
  | none => rfl
  | some bytes =>
    simp only
    split
    · rfl
    · obtain ⟨files₀, hverify⟩ := hsound
      obtain ⟨-, bytes₀, -, -, hdigest₀⟩ := verifies_file hverify
      have hne : ref.cipherSHA256 ≠ "" := hdigest₀ ▸ c.sha256_ne_empty bytes₀
      have hdigest : c.sha256 bytes ≠ ref.cipherSHA256 := by
        intro hsame
        rw [Sound.verifies ⟨files₀, hverify⟩ hpath hget (hsame ▸ c.equalFold_refl _)] at h
        cases h
      simp [hne, hdigest]
      rfl

variable {remote : Remote} {encoded : Bytes}

theorem downloadRef_ok {content : Bytes} {path : String} (hmirrored : Mirrored c remote ref content)
    (hsound : Sound c keys workloadID ref) (hpath : chunkPath ref = .ok path) (files : Files) :
    ∃ files', downloadRef c remote keys workloadID ref files = .ok () files' ∧
      verifies c.toChunkPrimitives keys files' workloadID ref = true ∧
      ∀ other, other ≠ path → files'.get other = files.get other := by
  unfold downloadRef
  rw [Program.get_bind_apply]
  cases hverify : verifies c.toChunkPrimitives keys files workloadID ref with
  | true =>
    obtain ⟨path', bytes, hpath', hget, hdigest⟩ := verifies_file hverify
    cases hpath.symm.trans hpath'
    refine ⟨files, ?_, hverify, fun _ _ => rfl⟩
    refine Program.lift_bind_eq_ok.mpr ⟨false,
      mapError_ok.mpr (missing_false hpath hget (verifies_size hverify hpath hget) hdigest), ?_⟩
    show importOn c keys workloadID ref [] files = .ok () files
    unfold importOn Program.mapError
    have himport : (importChunkResult c.toChunkPrimitives keys quietImport workloadID ref [] >>=
        fun _ => pure ()) files = .ok () files :=
      Program.bind_eq_ok.mpr ⟨false, files, importChunkResult_present hverify [], rfl⟩
    rw [himport]
  | false =>
    have hplaced : verifies c.toChunkPrimitives keys (files.set path content) workloadID ref =
        true := hsound.verifies hpath (get_set_same ..) hmirrored.digest
    obtain ⟨isNew, hrun⟩ := importChunkResult_quiet hpath hplaced hverify
    refine ⟨files.set path content, ?_, hplaced, fun other hne =>
      get_set_other _ _ hne⟩
    refine Program.lift_bind_eq_ok.mpr
      ⟨true, mapError_ok.mpr (missing_of_unsound hpath hsound hverify), ?_⟩
    simp only [if_true, hmirrored.get_eq]
    unfold importOn Program.mapError
    have himport : (importChunkResult c.toChunkPrimitives keys quietImport workloadID ref content
        >>= fun _ => pure ()) files = .ok () (files.set path content) :=
      Program.bind_eq_ok.mpr ⟨isNew, _, hrun, rfl⟩
    rw [himport]

def SameChunk (ref ref' : ChunkRef) : Prop :=
  ref.keyVersion = ref'.keyVersion ∧ ref.address = ref'.address

theorem downloadRefs_ok {refs : List ChunkRef}
    (hapart : refs.Pairwise fun ref ref' => ¬ SameChunk ref ref')
    (hmirrored : ∀ ref ∈ refs, ∃ content, Mirrored c remote ref content)
    (hsound : ∀ ref ∈ refs, Sound c keys workloadID ref) (files : Files) :
    ∃ files', downloadRefs c remote keys workloadID refs files = .ok () files' ∧
      (∀ ref ∈ refs, verifies c.toChunkPrimitives keys files' workloadID ref = true) ∧
      ∀ other, (∀ ref ∈ refs, chunkPath ref ≠ .ok other) → files'.get other = files.get other := by
  induction refs generalizing files with
  | nil => exact ⟨files, rfl, by simp, fun _ _ => rfl⟩
  | cons ref rest ih =>
    rw [pairwise_cons] at hapart
    obtain ⟨content, hcontent⟩ := hmirrored ref (mem_cons_self ..)
    have hfirst := hsound ref (mem_cons_self ..)
    obtain ⟨path, -, hpath, -⟩ := verifies_file hfirst.choose_spec
    obtain ⟨files₁, hrun₁, hverify₁, hframe₁⟩ := downloadRef_ok hcontent hfirst hpath files
    obtain ⟨files₂, hrun₂, hverify₂, hframe₂⟩ := ih hapart.2
      (fun other hother => hmirrored other (mem_cons_of_mem _ hother))
      (fun other hother => hsound other (mem_cons_of_mem _ hother)) files₁
    refine ⟨files₂, Program.bind_eq_ok.mpr ⟨(), files₁, hrun₁, hrun₂⟩, ?_, ?_⟩
    · intro other hother
      rcases mem_cons.mp hother with rfl | hother
      · have hsame : files₂.get path = files₁.get path :=
          hframe₂ path fun later hlater hp => hapart.1 later hlater (chunkPath_injective hpath hp)
        rw [verifies_congr hpath hsame]
        exact hverify₁
      · exact hverify₂ other hother
    · intro other hother
      rw [hframe₂ other fun later hlater => hother later (mem_cons_of_mem _ hlater)]
      refine hframe₁ other ?_
      rintro rfl
      exact hother ref (mem_cons_self ..) hpath

end Downloads

def allRefs (m : CheckpointManifest) : List ChunkRef :=
  m.assets.flatMap fun asset => asset.chunks.map (·.toChunkRef)

structure Gathered (refs gathered : List ChunkRef) : Prop where
  mem : ∀ ref ∈ gathered, ref ∈ refs
  covers : ∀ ref ∈ refs, ∃ ref' ∈ gathered, SameChunk ref' ref
  apart : gathered.Pairwise fun ref ref' => ¬ SameChunk ref ref'

theorem Gathered.add {refs gathered : List ChunkRef} (h : Gathered refs gathered) (ref : ChunkRef) :
    Gathered (refs ++ [ref])
      (if gathered.any fun seen => seen.keyVersion = ref.keyVersion && seen.address = ref.address
        then gathered else gathered ++ [ref]) := by
  split
  · rename_i hseen
    obtain ⟨seen, hmem, hsame⟩ := any_eq_true.mp hseen
    simp only [Bool.and_eq_true, decide_eq_true_eq] at hsame
    refine ⟨fun other hother => mem_append_left _ (h.mem other hother), ?_, h.apart⟩
    intro other hother
    rcases mem_append.mp hother with hother | hother
    · exact h.covers other hother
    · rw [mem_singleton.mp hother]
      exact ⟨seen, hmem, hsame⟩
  · rename_i hnew
    refine ⟨?_, ?_, ?_⟩
    · intro other hother
      rcases mem_append.mp hother with hother | hother
      · exact mem_append_left _ (h.mem other hother)
      · exact mem_append_right _ hother
    · intro other hother
      rcases mem_append.mp hother with hother | hother
      · obtain ⟨found, hfound, hsame⟩ := h.covers other hother
        exact ⟨found, mem_append_left _ hfound, hsame⟩
      · exact ⟨other, mem_append_right _ hother, rfl, rfl⟩
    · refine pairwise_append.mpr ⟨h.apart, pairwise_singleton _ _, ?_⟩
      intro seen hseen other hother hsame
      rw [mem_singleton.mp hother] at hsame
      refine hnew (any_eq_true.mpr ⟨seen, hseen, ?_⟩)
      rw [Bool.and_eq_true, decide_eq_true_eq, decide_eq_true_eq]
      exact hsame

theorem uniqueChunkRefs_gathered (m : CheckpointManifest) :
    Gathered (allRefs m) (uniqueChunkRefs m.assets) := by
  have hwalk : ∀ (rest before gathered : List ChunkRef), Gathered before gathered →
      Gathered (before ++ rest) (rest.foldl (fun refs ref =>
        if refs.any fun seen => seen.keyVersion = ref.keyVersion && seen.address = ref.address then
          refs
        else refs ++ [ref]) gathered) := by
    intro rest
    induction rest with
    | nil =>
      intro before gathered h
      rwa [append_nil]
    | cons ref rest ih =>
      intro before gathered h
      have := ih (before ++ [ref]) _ (h.add ref)
      rwa [append_assoc, singleton_append] at this
  exact hwalk (allRefs m) [] [] ⟨by simp, by simp, List.Pairwise.nil⟩

structure HoldsKeys (source dest : Machine) (workloadID : String) : Prop where
  shared : ∀ v key, source.keys workloadID v = .ok key → dest.keys workloadID v = .ok key
  newest : ∃ key, dest.keys workloadID (dest.newest workloadID) = .ok key ∧ key.length = keySize

def resealed (c : MirrorCodec) (dest : Machine) (nonce : Nonce) (m : CheckpointManifest) :
    Option Bytes :=
  match dest.keys m.workload.id (dest.newest m.workload.id) with
  | .error _ => none
  | .ok key =>
    ((sealManifest c.toCodec ⟨dest.newest m.workload.id, key, nonce⟩ m).toOption).map
      c.encodeEnvelope

/-- The envelope that the machine has of a manifest it downloads: the one it holds, or its own. -/
def heldEnvelope (c : MirrorCodec) (dest : Machine) (nonce : Nonce) (m : CheckpointManifest) :
    Option Bytes :=
  match dest.loadEncrypted c m.id with
  | .ok (_, encoded) => some encoded
  | .error _ => resealed c dest nonce m

/-- The references verify against some file, two of which name one chunk only with one ciphertext;
and under the id the machine has nothing else and can store an envelope. -/
structure Restorable (c : MirrorCodec) (dest : Machine) (nonce : Nonce) (m : CheckpointManifest) :
    Prop where
  sound : ∀ ref ∈ allRefs m, Sound c dest.keys m.workload.id ref
  agree : ∀ ref ∈ allRefs m, ∀ ref' ∈ allRefs m, SameChunk ref ref' →
    ref.cipherSHA256 = ref'.cipherSHA256
  same : ∀ existing bytes, dest.loadEncrypted c m.id = .ok (existing, bytes) → existing = m
  free : ∀ e, dest.loadEncrypted c m.id = .error e → absent e = true ∧
    dest.newest m.workload.id ≠ 0 ∧
    ∀ encoded ∈ resealed c dest nonce m, encoded.length ≤ maxEncryptedManifestBytes

def Machine.filed (c : MirrorCodec) (dest : Machine) (m : CheckpointManifest)
    (e : EncryptedManifest) : Cabinet where
  index := dest.cabinet.index.set m.id (summarize m (dest.newest m.workload.id))
  manifests := dest.cabinet.manifests.set m.id (c.encodeEnvelope e)

section RoundTrip

variable {source dest dest' : Machine} {nonce : Nonce} {m : CheckpointManifest}

theorem resealed_eq (c : MirrorCodec) (nonce : Nonce) {key : Bytes}
    (hkey : dest.keys m.workload.id (dest.newest m.workload.id) = .ok key)
    (hlength : key.length = keySize) : ∃ e,
      sealManifest c.toCodec ⟨dest.newest m.workload.id, key, nonce⟩ m = .ok e ∧
        resealed c dest nonce m = some (c.encodeEnvelope e) := by
  obtain ⟨e, he⟩ : ∃ e,
      sealManifest c.toCodec ⟨dest.newest m.workload.id, key, nonce⟩ m = .ok e := by
    simp only [sealManifest, encrypt, derive, hlength, ne_eq, not_true, if_false]
    exact ⟨_, rfl⟩
  refine ⟨e, he, ?_⟩
  simp only [resealed, hkey, he]
  rfl

section Saved

variable {key : Bytes} {e : EncryptedManifest} (hverify : verifyManifest c.toCodec m = .ok ())
  (hkey : dest.keys m.workload.id (dest.newest m.workload.id) = .ok key)
  (hseal : sealManifest c.toCodec ⟨dest.newest m.workload.id, key, nonce⟩ m = .ok e)

include hverify hkey hseal

theorem machine_save :
    dest.save c nonce m =
      match dest.loadEncrypted c m.id with
      | .ok (existing, _) =>
        (dest, if existing.manifestSHA256 = m.manifestSHA256 then .ok ()
          else .error (.other "checkpoint id already exists with different contents"))
      | .error err =>
        if absent err then
          ({ dest with cabinet := dest.filed c m e }, .ok ())
        else (dest, .error err) := by
  have hrun := save_alone (x := ⟨.yes, dest.newest m.workload.id, nonce⟩) (s := dest.cabinet) rfl
    hverify hkey hseal
  unfold Machine.save
  rw [loadEncrypted_eq]
  show (({ dest with cabinet := (Thread.alone _ _ _).1 } : Machine), (Thread.alone _ _ _).2) = _
  rw [show (Thread.alone (dest.quiet m.workload.id nonce) (Repository.save c.toCodec dest.keys m)
    dest.cabinet) = _ from hrun]
  cases stored c.toCodec dest.keys dest.cabinet m.id with
  | ok found => rfl
  | error err =>
    dsimp only
    split <;> rfl

theorem loadEncrypted_saved (hversion : dest.newest m.workload.id ≠ 0)
    (hsize : (c.encodeEnvelope e).length ≤ maxEncryptedManifestBytes) (files : Files) :
    ({ dest with files, cabinet := dest.filed c m e } : Machine).loadEncrypted c m.id =
      .ok (m, c.encodeEnvelope e) := by
  have hload := checkLoaded_seal hseal hverify hkey hversion hsize
  rw [(openEnvelope_sealManifest hseal).2.2.2.1] at hload
  rw [loadEncrypted_eq]
  simp only [stored, Machine.filed, (verifyManifest_ok hverify).id, get_set_same, hload]
  rfl

end Saved

theorem download_ok {id : String} (h : download c remote nonce id dest = .ok m dest') :
    fetchManifest c remote dest id = .ok m ∧ ∃ files,
      dest' = (({ dest with files } : Machine).save c nonce m).1 ∧
      (({ dest with files } : Machine).save c nonce m).2 = .ok () := by
  unfold download at h
  rw [Program.get_bind_apply] at h
  obtain ⟨found, hfetched, h₁⟩ := Program.lift_bind_eq_ok.mp h
  obtain ⟨_, dest₁, hrefs, h₂⟩ := Program.bind_eq_ok.mp h₁
  have hfiles : ∃ files, dest₁ = { dest with files } := by
    unfold Program.zoom at hrefs
    split at hrefs
    · cases hrefs
      exact ⟨_, rfl⟩
    · cases hrefs
    · cases hrefs
  obtain ⟨files, rfl⟩ := hfiles
  rw [Program.get_bind_apply] at h₂
  obtain ⟨_, dest₂, hmodify, h₃⟩ := Program.bind_eq_ok.mp h₂
  cases hmodify
  obtain ⟨_, hsave, h₄⟩ := Program.lift_bind_eq_ok.mp h₃
  cases h₄
  exact ⟨hfetched, files, rfl, mapError_ok.mp hsave⟩

theorem download_of {id : String} {files : Files} (hfetch : fetchManifest c remote dest id = .ok m)
    (hrefs : downloadRefs c remote dest.keys m.workload.id (uniqueChunkRefs m.assets) dest.files =
      .ok () files) (hsave : (({ dest with files } : Machine).save c nonce m).2 = .ok ()) :
    download c remote nonce id dest =
      .ok m (({ dest with files } : Machine).save c nonce m).1 := by
  unfold download
  rw [Program.get_bind_apply]
  refine Program.lift_bind_eq_ok.mpr ⟨m, hfetch, ?_⟩
  refine Program.bind_eq_ok.mpr ⟨(), { dest with files }, ?_, ?_⟩
  · unfold Program.zoom
    rw [hrefs]
  · rw [Program.get_bind_apply]
    refine Program.bind_eq_ok.mpr ⟨(), _, rfl, ?_⟩
    exact Program.lift_bind_eq_ok.mpr ⟨(), mapError_ok.mpr hsave, rfl⟩

theorem fetchManifest_uploaded (hload : source.loadEncrypted c m.id = .ok (m, encoded))
    (h : Uploaded c remote m encoded) (hkeys : HoldsKeys source dest m.workload.id)
    (htrust : dest.trusted m.security.signerMachineID = true) :
    fetchManifest c remote dest m.id = .ok m := by
  obtain ⟨-, summary, hloaded⟩ := loadEncrypted_ok hload
  obtain ⟨e, hdecode⟩ := hloaded.decoded
  have hget : remote.get c (checkpointManifestKey m.id) =
      .ok (describe c (checkpointManifestKey m.id) encoded, encoded) :=
    Remote.get_ok.mpr ⟨h.key, h.envelope, rfl⟩
  have hsize := hloaded.size
  have hhead : remote.head c (checkpointManifestKey m.id) =
      .ok (describe c (checkpointManifestKey m.id) encoded) := by
    simp only [Remote.head, hget, Except.map]
  simp only [fetchManifest, bind_ok, guard_ok]
  refine ⟨validateID_ne_empty (verifyManifest_ok hloaded.verified).id, _,
    mapError_ok.mpr hhead, ?_, _, mapError_ok.mpr hget, (), ?_, (), ?_, (m, e), ?_, ?_, rfl⟩
  · show ¬ ((encoded.length : Int) < 0 ∨ (encoded.length : Int) > maxEncryptedManifestBytes)
    omega
  · exact verifyMirroredObject_ok.mpr ⟨rfl, c.equalFold_refl _⟩
  · exact verifyMirroredObject_ok.mpr ⟨rfl, c.equalFold_refl _⟩
  · exact mapError_ok.mpr (decodeEncryptedManifest_keys hdecode hkeys.shared)
  · simp [(verifyManifest_ok hloaded.verified).signer, htrust]

theorem save_files (files : Files) :
    (({ dest with files } : Machine).save c nonce m) =
      ({ (dest.save c nonce m).1 with files }, (dest.save c nonce m).2) := rfl

theorem downloaded_cabinet (hverify : verifyManifest c.toCodec m = .ok ())
    (hkeys : HoldsKeys source dest m.workload.id)
    (h : download c remote nonce m.id dest = .ok m dest') :
    dest'.keys = dest.keys ∧
    ((∃ existing bytes, dest.loadEncrypted c m.id = .ok (existing, bytes) ∧
        existing.manifestSHA256 = m.manifestSHA256 ∧ dest'.cabinet = dest.cabinet) ∨
      ∃ err key e, dest.loadEncrypted c m.id = .error err ∧ absent err = true ∧
        dest.keys m.workload.id (dest.newest m.workload.id) = .ok key ∧
        sealManifest c.toCodec ⟨dest.newest m.workload.id, key, nonce⟩ m = .ok e ∧
        resealed c dest nonce m = some (c.encodeEnvelope e) ∧
        dest'.cabinet = dest.filed c m e) := by
  obtain ⟨-, files, rfl, hsave⟩ := download_ok h
  obtain ⟨key, hkey, hlength⟩ := hkeys.newest
  obtain ⟨e, hseal, hresealed⟩ := resealed_eq c nonce hkey hlength
  rw [save_files, machine_save hverify hkey hseal] at hsave ⊢
  cases hload : dest.loadEncrypted c m.id with
  | ok found =>
    obtain ⟨existing, bytes⟩ := found
    simp only [hload] at hsave ⊢
    by_cases hhash : existing.manifestSHA256 = m.manifestSHA256
    · exact ⟨trivial, .inl ⟨existing, bytes, rfl, hhash, trivial⟩⟩
    · rw [if_neg hhash] at hsave
      cases hsave
  | error err =>
    simp only [hload] at hsave ⊢
    by_cases habsent : absent err = true
    · simp only [habsent, if_true]
      exact ⟨trivial, .inr ⟨err, key, e, rfl, habsent, hkey, hseal, hresealed, rfl⟩⟩
    · rw [if_neg habsent] at hsave
      cases hsave

theorem version_of_loaded {key : Bytes} {e : EncryptedManifest} {keys : KeySource} {id : String}
    {summary : Summary} (h : Loaded c.toCodec keys id summary (c.encodeEnvelope e) m)
    (hseal : sealManifest c.toCodec ⟨dest.newest m.workload.id, key, nonce⟩ m = .ok e) :
    dest.newest m.workload.id ≠ 0 := by
  obtain ⟨e', hdecode⟩ := h.decoded
  have hd := decodeEncryptedManifest_ok hdecode
  have henvelope := hd.envelope
  rw [c.decodeEnvelope_encodeEnvelope] at henvelope
  cases henvelope
  exact fun hzero => hd.version ((openEnvelope_sealManifest hseal).2.2.2.1.trans hzero)

/-- A machine that downloaded a checkpoint uploads it exactly when it holds the envelope of the
object store. -/
theorem upload_downloaded {uploadIDs : ChunkRef → String}
    (hload : source.loadEncrypted c m.id = .ok (m, encoded)) (hup : Uploaded c remote m encoded)
    (hkeys : HoldsKeys source dest m.workload.id)
    (h : download c remote nonce m.id dest = .ok m dest') :
    (upload c dest' uploadIDs m remote).succeeded = true ↔
      heldEnvelope c dest nonce m = some encoded := by
  obtain ⟨-, summary, hloaded⟩ := loadEncrypted_ok hload
  obtain ⟨hsame, hcases⟩ := downloaded_cabinet hloaded.verified hkeys h
  rcases hcases with ⟨existing, bytes, hold, hhash, hcabinet⟩ |
    ⟨err, key, e, hnone, -, hkey, hseal, hresealed, hcabinet⟩
  · have hread : dest'.loadEncrypted c m.id = .ok (existing, bytes) := by
      rw [loadEncrypted_eq, hsame, hcabinet, ← loadEncrypted_eq]
      exact hold
    have hexisting : contents existing = contents m := by
      obtain ⟨-, _, hheld⟩ := loadEncrypted_ok hold
      exact contents_eq_of_digest c.sha256_injective hheld.verified hloaded.verified hhash
    have hassets : existing.assets = m.assets := congrArg (·.assets) hexisting
    have hid : existing.id = m.id := congrArg (·.id) hexisting
    rw [upload_again hread hloaded.verified hhash
      ⟨hassets ▸ hup.chunks, hid ▸ hup.key, hid ▸ hup.envelope⟩]
    simp only [heldEnvelope, hold, Option.some.injEq]
  · have hfile : dest'.cabinet.manifests.get m.id = some (c.encodeEnvelope e) := by
      rw [hcabinet]
      exact get_set_same ..
    simp only [heldEnvelope, hnone, hresealed, Option.some.injEq]
    constructor
    · intro hsucceeded
      cases hupload : upload c dest' uploadIDs m remote with
      | error _ _ | crash _ =>
        rw [hupload] at hsucceeded
        cases hsucceeded
      | ok result r' =>
        obtain ⟨m', bytes, hread, -, -, hid, hkeeps, hup'⟩ := upload_ok hupload
        cases hfile.symm.trans (loadEncrypted_ok hread).1
        have henvelope := hkeeps _ _ hup.envelope
        rw [← hid, hup'.envelope] at henvelope
        exact Option.some.inj henvelope
    · intro hsealed
      -- The envelope in the object store was read on the source, so it is small and has a version.
      have hversion := version_of_loaded (hsealed ▸ hloaded) hseal
      have hsize : (c.encodeEnvelope e).length ≤ maxEncryptedManifestBytes :=
        hsealed ▸ hloaded.size
      have hread := loadEncrypted_saved hloaded.verified hkey hseal hversion hsize dest.files
      have hread' : dest'.loadEncrypted c m.id = .ok (m, c.encodeEnvelope e) := by
        rw [loadEncrypted_eq, hsame, hcabinet]
        rw [loadEncrypted_eq] at hread
        exact hread
      exact (upload_again hread' hloaded.verified rfl hup).mpr hsealed

def RoundTripped (c : MirrorCodec) (dest' : Machine) (m : CheckpointManifest) : Prop :=
  (∀ ref ∈ allRefs m,
    verifies c.toChunkPrimitives dest'.keys dest'.files m.workload.id ref = true) ∧
  ∃ bytes, dest'.loadEncrypted c m.id = .ok (m, bytes)

theorem restorable_of_roundTripped (hverify : verifyManifest c.toCodec m = .ok ())
    (hkeys : HoldsKeys source dest m.workload.id)
    (h : download c remote nonce m.id dest = .ok m dest') (hround : RoundTripped c dest' m) :
    Restorable c dest nonce m := by
  obtain ⟨hchunks, bytes, hread⟩ := hround
  obtain ⟨hsame, hcases⟩ := downloaded_cabinet hverify hkeys h
  rw [hsame] at hchunks
  refine ⟨fun ref href => ⟨_, hchunks ref href⟩, ?_, ?_, ?_⟩
  · intro ref href ref' href' hsameChunk
    obtain ⟨path, content, hpath, hget, hdigest⟩ := verifies_file (hchunks ref href)
    obtain ⟨path', content', hpath', hget', hdigest'⟩ := verifies_file (hchunks ref' href')
    rw [chunkPath_eq hsameChunk.1 hsameChunk.2] at hpath
    cases hpath.symm.trans hpath'
    cases hget.symm.trans hget'
    exact hdigest.symm.trans hdigest'
  · intro existing held hold
    rcases hcases with ⟨existing', held', hold', -, hcabinet⟩ | ⟨err, _, _, hnone, _⟩
    · rw [loadEncrypted_eq, hsame, hcabinet, ← loadEncrypted_eq, hold] at hread
      cases hread
      rfl
    · rw [hold] at hnone
      cases hnone
  · intro err hnone
    rcases hcases with ⟨existing', held', hold', -⟩ |
      ⟨err', key, e, hnone', habsent, -, hseal, hresealed, hcabinet⟩
    · rw [hold'] at hnone
      cases hnone
    · cases hnone.symm.trans hnone'
      obtain ⟨hbytes, summary, hloaded⟩ := loadEncrypted_ok hread
      rw [hcabinet, Machine.filed, get_set_same] at hbytes
      cases hbytes
      refine ⟨habsent, version_of_loaded hloaded hseal, ?_⟩
      intro encoded hencoded
      rw [hresealed] at hencoded
      cases hencoded
      exact hloaded.size

theorem roundTripped_of_restorable (hload : source.loadEncrypted c m.id = .ok (m, encoded))
    (hup : Uploaded c remote m encoded) (hkeys : HoldsKeys source dest m.workload.id)
    (htrust : dest.trusted m.security.signerMachineID = true) (h : Restorable c dest nonce m) :
    ∃ dest', download c remote nonce m.id dest = .ok m dest' ∧ RoundTripped c dest' m := by
  have hfetch := fetchManifest_uploaded hload hup hkeys htrust
  obtain ⟨-, summary, hloaded⟩ := loadEncrypted_ok hload
  have hverify := hloaded.verified
  have hgathered := uniqueChunkRefs_gathered m
  obtain ⟨files, hrefs, hverified, -⟩ := downloadRefs_ok hgathered.apart hup.chunks
    (fun ref href => h.sound ref (hgathered.mem ref href)) dest.files
  -- A reference that is not walked names the chunk of one that is, under the same digest.
  have hall : ∀ ref ∈ allRefs m,
      verifies c.toChunkPrimitives dest.keys files m.workload.id ref = true := by
    intro ref href
    obtain ⟨first, hfirst, hsame⟩ := hgathered.covers ref href
    obtain ⟨path, bytes, hpath, hget, hdigest⟩ := verifies_file (hverified first hfirst)
    rw [chunkPath_eq hsame.1 hsame.2] at hpath
    refine (h.sound ref href).verifies hpath hget ?_
    rw [hdigest, h.agree first (hgathered.mem first hfirst) ref href hsame]
    exact c.equalFold_refl _
  obtain ⟨key, hkey, hlength⟩ := hkeys.newest
  obtain ⟨e, hseal, hresealed⟩ := resealed_eq c nonce hkey hlength
  have hrun := machine_save hverify hkey hseal
  cases hold : dest.loadEncrypted c m.id with
  | ok found =>
    obtain ⟨existing, bytes⟩ := found
    have hexisting := h.same existing bytes hold
    subst hexisting
    simp only [hold, if_true] at hrun
    have hsave : (({ dest with files } : Machine).save c nonce existing).2 = .ok () := by
      rw [save_files, hrun]
    refine ⟨_, download_of hfetch hrefs hsave, ?_⟩
    rw [save_files, hrun]
    refine ⟨hall, bytes, ?_⟩
    rw [loadEncrypted_eq] at hold ⊢
    exact hold
  | error err =>
    obtain ⟨habsent, hversion, hsize⟩ := h.free err hold
    simp only [hold, habsent, if_true] at hrun
    have hsave : (({ dest with files } : Machine).save c nonce m).2 = .ok () := by
      rw [save_files, hrun]
    refine ⟨_, download_of hfetch hrefs hsave, ?_⟩
    rw [save_files, hrun]
    exact ⟨hall, _, loadEncrypted_saved hverify hkey hseal hversion (hsize _ hresealed) files⟩

/-- After an upload that succeeded and whatever is uploaded after it: a machine with the workload's
key that trusts the signer downloads the checkpoint whole exactly when the manifest is restorable
there; the machine that uploaded it can do so again; and the one that downloaded it can exactly when
it holds the very envelope that was uploaded. -/
theorem mirror_round_trip_iff {given : CheckpointManifest} {result : MirrorResult}
    {remote uploaded later : Remote} {uploadIDs : ChunkRef → String}
    (hupload : upload c source uploadIDs given remote = .ok result uploaded)
    (hlater : Keeps uploaded later) (hkeys : HoldsKeys source dest given.workload.id)
    (htrust : dest.trusted given.security.signerMachineID = true) (nonce : Nonce) :
    ∃ m encoded, source.loadEncrypted c given.id = .ok (m, encoded) ∧
      contents m = contents given ∧
      ((∃ dest', download c later nonce given.id dest = .ok m dest' ∧ RoundTripped c dest' m) ↔
        Restorable c dest nonce m) ∧
      (∀ again : Machine, again.loadEncrypted c given.id = .ok (m, encoded) →
        (upload c again uploadIDs given later).succeeded = true) ∧
      ∀ dest', download c later nonce given.id dest = .ok m dest' →
        ((upload c dest' uploadIDs m later).succeeded = true ↔
          heldEnvelope c dest nonce m = some encoded) := by
  obtain ⟨m, encoded, hload, hgiven, hhash, hid, -, hup⟩ := upload_ok hupload
  obtain ⟨-, summary, hloaded⟩ := loadEncrypted_ok hload
  have hverify := hloaded.verified
  have hcontents := contents_eq_of_digest c.sha256_injective hverify hgiven hhash
  have hworkload : m.workload.id = given.workload.id := congrArg (·.workload.id) hcontents
  have hsigner : m.security.signerMachineID = given.security.signerMachineID :=
    congrArg (·.security.signerMachineID) hcontents
  rw [← hworkload] at hkeys
  rw [← hsigner] at htrust
  have huploaded := hup.keep hlater
  refine ⟨m, encoded, hload, hcontents, ⟨?_, ?_⟩, ?_, ?_⟩
  · rintro ⟨dest', hdownload, hround⟩
    rw [← hid] at hdownload
    exact restorable_of_roundTripped hverify hkeys hdownload hround
  · intro hrestorable
    rw [← hid] at hload ⊢
    exact roundTripped_of_restorable hload huploaded hkeys htrust hrestorable
  · intro again hagain
    exact (upload_again hagain hgiven hhash huploaded).mpr rfl
  · intro dest' hdownload
    rw [← hid] at hload hdownload
    exact upload_downloaded hload huploaded hkeys hdownload

/-- A checkpoint whose chunks are all whole on the machine that uploads it restores to the same
bytes, asset by asset, on every machine that downloads it later. -/
theorem mirrored_assets_restore {uploaded later : Remote} {uploadIDs : ChunkRef → String}
    {result : MirrorResult} {found : CheckpointManifest}
    (hload : source.loadEncrypted c m.id = .ok (m, encoded))
    (hupload : upload c source uploadIDs m remote = .ok result uploaded)
    (hlater : Keeps uploaded later) (hkeys : HoldsKeys source dest m.workload.id)
    (htrust : dest.trusted m.security.signerMachineID = true)
    (hwhole : ∀ ref ∈ allRefs m,
      verifies c.toChunkPrimitives source.keys source.files m.workload.id ref = true)
    (hdownload : download c later nonce m.id dest = .ok found dest') :
    found = m ∧ ∀ asset ∈ m.assets,
      restoreAsset c.toChunkPrimitives dest'.keys dest'.files m.workload.id asset =
        restoreAsset c.toChunkPrimitives source.keys source.files m.workload.id asset := by
  obtain ⟨stored, bytes, hstored, -, -, -, -, hup⟩ := upload_ok hupload
  cases hload.symm.trans hstored
  replace hup := hup.keep hlater
  have hfetch := fetchManifest_uploaded hload hup hkeys htrust
  obtain ⟨hfetched, _, -, hsaved⟩ := download_ok hdownload
  cases hfetch.symm.trans hfetched
  refine ⟨rfl, fun asset hasset => ?_⟩
  have hgathered := uniqueChunkRefs_gathered m
  have hsound : ∀ ref ∈ allRefs m, Sound c dest.keys m.workload.id ref := fun ref href =>
    ⟨source.files, by
      rw [verifies, verifyChunk_shared hkeys.shared (fun _ _ => rfl) (hwhole ref href)]
      exact hwhole ref href⟩
  obtain ⟨files, hrefs, hverified, -⟩ := downloadRefs_ok hgathered.apart hup.chunks
    (fun ref href => hsound ref (hgathered.mem ref href)) dest.files
  cases hdownload.symm.trans (download_of hfetch hrefs hsaved)
  -- Both machines have the file of the first reference to the chunk, under the digest it pins.
  have hchunks : ∀ chunk ∈ asset.chunks.insertionSort (·.sequence ≤ ·.sequence),
      verifyChunk c.toChunkPrimitives dest.keys files m.workload.id chunk.toChunkRef =
        verifyChunk c.toChunkPrimitives source.keys source.files m.workload.id
          chunk.toChunkRef := by
    intro chunk hchunk
    have href : chunk.toChunkRef ∈ allRefs m := mem_flatMap.mpr
      ⟨asset, hasset, mem_map_of_mem ((perm_insertionSort _ _).mem_iff.mp hchunk)⟩
    refine verifyChunk_shared hkeys.shared (fun path hpath => ?_) (hwhole _ href)
    obtain ⟨first, hfirst, hsame⟩ := hgathered.covers _ href
    rw [← chunkPath_eq hsame.1 hsame.2] at hpath
    obtain ⟨_, here, hpath₁, hhere, hdigest⟩ := verifies_file (hverified first hfirst)
    obtain ⟨_, there, hpath₂, hthere, hdigest'⟩ :=
      verifies_file (hwhole first (hgathered.mem first hfirst))
    cases hpath.symm.trans hpath₁
    cases hpath.symm.trans hpath₂
    rw [hhere, hthere, c.sha256_injective (hdigest.trans hdigest'.symm)]
  exact congrArg (· >>= _) (restoreChunks_congr hchunks)

end RoundTrip

namespace Sample

noncomputable def codec : MirrorCodec :=
  { Repository.Sample.codec with
    equalFold := fun a b => a = b
    equalFold_refl := fun s => by simp
    equalFold_digest := fun a b h => by simpa using h
    sha256_injective := Repository.Sample.sha256_injective
    sha256_ne_empty := Repository.Sample.sha256_ne_empty }

noncomputable def source : Machine where
  cabinet :=
    { index := FileTable.empty.set "c" (summarize Repository.Sample.full 1)
      manifests :=
        FileTable.empty.set "c" (codec.encodeEnvelope (Repository.Sample.envelope 0 1)) }
  files := sampleFiles
  keys := sampleKeys
  newest := fun _ => 1
  trusted := fun _ => true

def dest : Machine where
  cabinet := ⟨FileTable.empty, FileTable.empty⟩
  files := FileTable.empty
  keys := sampleKeys
  newest := fun _ => 1
  trusted := fun _ => true

def uploadIDs : ChunkRef → String := fun _ => "upload"

noncomputable def uploading : Outcome Remote MirrorError MirrorResult :=
  upload codec source uploadIDs Repository.Sample.full ⟨FileTable.empty, FileTable.empty⟩

noncomputable def downloading : Outcome Machine MirrorError CheckpointManifest :=
  download codec uploading.state (Repository.Sample.nonce 2) "c" dest

end Sample

open Sample

theorem Sample.keys_held : HoldsKeys source dest "w" :=
  ⟨fun _ _ h => h, List.replicate keySize 7, rfl, rfl⟩

-- One evaluation of the sample for all the facts that the proofs about it use.
theorem Sample.evaluated : source.loadEncrypted Sample.codec "c" = .ok (full, [0]) ∧
    (∃ a s, uploading = .ok a s ∧ True) ∧ (∃ a s, downloading = .ok a s ∧ True) ∧
    resealed Sample.codec dest (nonce 2) full = some [1] ∧
    ∀ ref ∈ allRefs full,
      verifies Sample.codec.toChunkPrimitives sampleKeys sampleFiles "w" ref = true := by
  decide +kernel

theorem mirror_round_trip_iff_sample :
    Restorable Sample.codec Sample.dest (Repository.Sample.nonce 2) Repository.Sample.full ∧
    ∃ dest', download Sample.codec Sample.uploading.state (Repository.Sample.nonce 2) "c"
      Sample.dest = .ok Repository.Sample.full dest' ∧
        RoundTripped Sample.codec dest' Repository.Sample.full := by
  obtain ⟨hread, ⟨result, uploaded, hrun, -⟩, -, hresealed, hwhole⟩ := Sample.evaluated
  have hrestorable : Restorable codec dest (nonce 2) full := by
    have hrefs : allRefs full = [chunk.toChunkRef] := rfl
    have hnone : dest.loadEncrypted codec "c" = .error .notFound := by decide
    refine ⟨fun ref href => ⟨sampleFiles, hwhole ref href⟩, ?_, ?_, ?_⟩
    · intro ref href ref' href' _
      rw [hrefs, mem_singleton] at href href'
      rw [href, href']
    · intro existing bytes hread
      cases hnone.symm.trans hread
    · intro e hread
      cases hnone.symm.trans hread
      refine ⟨rfl, by decide, fun encoded hencoded => ?_⟩
      cases hresealed.symm.trans hencoded
      decide
  refine ⟨hrestorable, ?_⟩
  obtain ⟨m, encoded, hload, -, hround, -, -⟩ :=
    mirror_round_trip_iff hrun (Keeps.refl uploaded) keys_held rfl (nonce 2)
  cases hread.symm.trans hload
  rw [hrun]
  exact hround.mpr hrestorable

/-- The envelope that the downloading machine made itself is not the one in the object store. -/
theorem downloaded_not_uploaded :
    Sample.uploading.succeeded = true ∧ Sample.downloading.succeeded = true ∧
    verifies Sample.codec.toChunkPrimitives sampleKeys Sample.downloading.state.files "w"
      Repository.Sample.chunk.toChunkRef = true ∧
    upload Sample.codec Sample.downloading.state Sample.uploadIDs Repository.Sample.full
      Sample.uploading.state = .error (.store .conflict) Sample.uploading.state := by
  decide +kernel

theorem mirrored_assets_restore_sample : ∃ found dest',
    Sample.downloading = .ok found dest' ∧ ∀ asset ∈ Repository.Sample.full.assets,
      restoreAsset Sample.codec.toChunkPrimitives dest'.keys dest'.files "w" asset =
        restoreAsset Sample.codec.toChunkPrimitives sampleKeys sampleFiles "w" asset := by
  obtain ⟨hread, ⟨result, uploaded, hup, -⟩, ⟨found, dest', hdown, -⟩, -, hwhole⟩ :=
    Sample.evaluated
  refine ⟨found, dest', hdown, ?_⟩
  rw [downloading, hup] at hdown
  exact (mirrored_assets_restore hread hup (.refl _) keys_held rfl hwhole hdown).2

end Shiftgate.Checkpoint.Mirrors
