import Shiftgate.Chunkstore.Store

/-! What an import does to the references that verified before it. It may replace the file at its
path, or remove it, and another reference to that path is then left without its bytes. -/

namespace Shiftgate.Chunkstore

open Library Securestore FileTable

variable {p : ChunkPrimitives} {keys : KeySource} {faults : ImportFaults} {files : Files}
  {workloadID : String} {ref : ChunkRef} {upload : Bytes}

theorem verifyChunk_eq {files : Files} :
    verifyChunk p keys files workloadID ref =
      if ref.plainSize < 1 ∨ ref.plainSize > maxPlainChunk then
        .error "chunk plain size out of range"
      else if ref.storedSize < 1 ∨ ref.storedSize > maxEncodedChunk then
        .error "chunk stored size out of range"
      else match chunkPath ref with
        | .error e => .error e
        | .ok path => match files.get path with
          | none => .error "no such file or directory"
          | some encoded => verifyBytes p keys workloadID ref encoded := by
  unfold verifyChunk
  by_cases hplain : ref.plainSize < 1 ∨ ref.plainSize > maxPlainChunk
  · simp only [hplain, if_true]
    rfl
  · by_cases hstored : ref.storedSize < 1 ∨ ref.storedSize > maxEncodedChunk
    · simp only [hplain, hstored, if_true, if_false]
      rfl
    · simp only [hplain, hstored, if_false]
      cases chunkPath ref <;> rfl

variable {path : String} {P : Files → Prop}

theorem verifies_congr {files files' : Files} (hpath : chunkPath ref = .ok path)
    (hget : files.get path = files'.get path) :
    verifies p keys files workloadID ref = verifies p keys files' workloadID ref := by
  simp only [verifies, verifyChunk_eq, hpath, hget]

theorem verifyBytes_shared {keys' : KeySource} {encoded : Bytes} {found : Bytes × Compression}
    (hkeys : ∀ v key, keys workloadID v = .ok key → keys' workloadID v = .ok key)
    (h : verifyBytes p keys workloadID ref encoded = .ok found) :
    verifyBytes p keys' workloadID ref encoded = .ok found := by
  unfold verifyBytes at h ⊢
  cases hframe : decodeChunk encoded with
  | error e => simpa only [hframe, bind, Except.bind] using h
  | ok frame =>
    cases hkey : keys workloadID frame.keyVersion with
    | ok key => simpa only [hframe, bind, Except.bind, hkey, hkeys _ _ hkey] using h
    | error e =>
      simp only [hframe, bind, Except.bind, hkey] at h
      cases e <;> split_ifs at h <;> cases h

/-- With the same file and all of its keys, another machine reads the same from a chunk. -/
theorem verifyChunk_shared {keys' : KeySource} {files' : Files}
    (hkeys : ∀ v key, keys workloadID v = .ok key → keys' workloadID v = .ok key)
    (hfiles : ∀ path, chunkPath ref = .ok path → files'.get path = files.get path)
    (h : verifies p keys files workloadID ref = true) :
    verifyChunk p keys' files' workloadID ref = verifyChunk p keys files workloadID ref := by
  unfold verifies at h
  simp only [verifyChunk_eq] at h ⊢
  cases hpath : chunkPath ref with
  | error e => rfl
  | ok path =>
    cases hget : files.get path with
    | none => simp only [hfiles path hpath, hget]
    | some encoded =>
      cases hbytes : verifyBytes p keys workloadID ref encoded with
      | error e =>
        simp only [hpath, hget, hbytes] at h
        split_ifs at h <;> cases h
      | ok found => simp only [hfiles path hpath, hget, hbytes, verifyBytes_shared hkeys hbytes]

theorem verifyBytes_digest {encoded : Bytes}
    (h : (verifyBytes p keys workloadID ref encoded).isOk = true) :
    p.sha256 encoded = ref.cipherSHA256 := by
  by_contra hne
  unfold verifyBytes at h
  by_cases hsize : (encoded.length : Int) ≠ ref.storedSize ∨ encoded.length > maxEncodedChunk
  · simp only [hsize, if_true] at h
    cases h
  · simp only [hsize, if_false, hne, ne_eq, not_false_eq_true, if_true] at h
    cases h

theorem verifies_file (h : verifies p keys files workloadID ref = true) :
    ∃ path encoded, chunkPath ref = .ok path ∧ files.get path = some encoded ∧
      p.sha256 encoded = ref.cipherSHA256 := by
  unfold verifies at h
  rw [verifyChunk_eq] at h
  split at h
  · cases h
  split at h
  · cases h
  cases hpath : chunkPath ref with
  | error e =>
    rw [hpath] at h
    cases h
  | ok path =>
    rw [hpath] at h
    cases hget : files.get path with
    | none =>
      simp only [hget] at h
      cases h
    | some encoded =>
      simp only [hget] at h
      exact ⟨path, encoded, rfl, hget, verifyBytes_digest h⟩

theorem not_verifies_of_absent (hpath : chunkPath ref = .ok path) (hget : files.get path = none) :
    verifies p keys files workloadID ref = false := by
  cases hv : verifies p keys files workloadID ref with
  | false => rfl
  | true =>
    obtain ⟨_, _, hpath', hget', -⟩ := verifies_file hv
    rw [hpath] at hpath'
    cases hpath'
    rw [hget] at hget'
    cases hget'

structure Staged (p : ChunkPrimitives) (faults : ImportFaults) (ref : ChunkRef) (upload : Bytes) :
    Prop where
  size : (upload.length : Int) = ref.storedSize
  digest : p.sha256 upload = ref.cipherSHA256
  mkdir : faults.mkdir = .none
  createTemp : faults.createTemp = .none
  chmod : faults.chmod = .none
  copy : faults.copy = .none
  sync : faults.sync = .none
  close : faults.close = .none

structure Writes (p : ChunkPrimitives) (keys : KeySource) (faults : ImportFaults) (files : Files)
    (workloadID : String) (ref : ChunkRef) (upload : Bytes) (path : String) : Prop where
  inRange : sizesInRange ref = true
  path_eq : chunkPath ref = .ok path
  stat : faults.stat = .none
  unverified : verifies p keys files workloadID ref = false
  staged : Staged p faults ref upload
  link : faults.link = .none
  rename : (files.get path).isSome = true → faults.rename = .none

def imported (p : ChunkPrimitives) (keys : KeySource) (faults : ImportFaults) (files : Files)
    (workloadID : String) (ref : ChunkRef) (upload : Bytes) (path : String) : Files :=
  if verifies p keys (files.set path upload) workloadID ref then files.set path upload
  else if faults.remove = .none then (files.set path upload).erase path
  else files.set path upload

theorem wp_stageUpload {post : Post Files String Unit} {s : Files}
    (hok : Staged p faults ref upload → post.ok () s)
    (hstop : ¬ Staged p faults ref upload → (∀ e, post.error e s) ∧ post.crash s) :
    wp (stageUpload p faults ref upload) post s := by
  have stop : ∀ {c : Prop}, ¬ c → (Staged p faults ref upload → c) → ∀ e,
      post.error e s ∧ post.crash s := by
    intro c hc himp e
    obtain ⟨herror, hcrash⟩ := hstop fun hs => hc (himp hs)
    exact ⟨herror e, hcrash⟩
  simp only [stageUpload, wp_bind]
  refine wp_effect_id (fun hmkdir => ?_) fun h => stop h Staged.mkdir _
  simp only [wp_bind]
  refine wp_effect_id (fun htemp => ?_) fun h => stop h Staged.createTemp _
  simp only [wp_bind]
  refine wp_effect_id (fun hchmod => ?_) fun h => stop h Staged.chmod _
  simp only [wp_bind]
  refine wp_effect_id (fun hcopy => ?_) fun h => stop h Staged.copy _
  simp only [wp_ite, wp_throw, wp_bind]
  refine ⟨fun h => (stop h Staged.size _).1, fun hsize => ⟨fun h => (stop h Staged.digest _).1,
    fun hdigest => ?_⟩⟩
  refine wp_effect_id (fun hsync => ?_) fun h => stop h Staged.sync _
  refine wp_effect_id (fun hclose => ?_) fun h => stop h Staged.close _
  exact hok ⟨not_not.mp hsize, not_not.mp hdigest, hmkdir, htemp, hchmod, hcopy, hsync, hclose⟩

theorem wp_verifyImported {isNew : Bool}
    (h : P (imported p keys faults files workloadID ref upload path)) :
    wp (verifyImported p keys faults workloadID ref path isNew) (.always P)
      (files.set path upload) := by
  simp only [verifyImported, wp_bind, wp_get]
  unfold imported verifies at h
  cases hv : verifyChunk p keys (files.set path upload) workloadID ref with
  | ok found =>
    simp only [hv] at h
    exact h
  | error e =>
    simp only [hv] at h
    simp only [wp_bind, wp_attempt, wp_effect]
    cases hremove : faults.remove with
    | none =>
      rw [hremove] at h
      exact ⟨fun _ => h, by simp, by simp⟩
    | fail =>
      rw [hremove] at h
      exact ⟨by simp, fun _ => h, by simp⟩
    | crash =>
      rw [hremove] at h
      exact ⟨by simp, by simp, fun _ => h⟩

theorem wp_importChunkResult
    (hskip : (∀ path, ¬ Writes p keys faults files workloadID ref upload path) → P files)
    (hwrite : ∀ path, Writes p keys faults files workloadID ref upload path →
      P (imported p keys faults files workloadID ref upload path)) :
    wp (importChunkResult p keys faults workloadID ref upload) (.always P) files := by
  have stop : ∀ {c : Prop}, ¬ c →
      (∀ path, Writes p keys faults files workloadID ref upload path → c) → P files :=
    fun hc himp => hskip fun path hw => hc (himp path hw)
  simp only [importChunkResult, wp_ite, wp_throw]
  refine ⟨fun h => ?_, fun hstored => ⟨fun h => ?_, fun hplain => ?_⟩⟩
  · refine hskip fun path hw => ?_
    have := hw.inRange
    simp only [sizesInRange, Bool.and_eq_true, decide_eq_true_eq] at this
    omega
  · refine hskip fun path hw => ?_
    have := hw.inRange
    simp only [sizesInRange, Bool.and_eq_true, decide_eq_true_eq] at this
    omega
  have inRange : sizesInRange ref = true := by
    simp only [sizesInRange, Bool.and_eq_true, decide_eq_true_eq]
    omega
  simp only [wp_bind]
  cases hpath : chunkPath ref with
  | error e =>
    refine hskip fun path hw => ?_
    have := hpath.symm.trans hw.path_eq
    cases this
  | ok path =>
    have samePath : ∀ other, Writes p keys faults files workloadID ref upload other →
        other = path := by
      intro other hw
      have := hw.path_eq.symm.trans hpath
      cases this
      rfl
    simp only [wp_liftExcept_ok, wp_bind]
    refine wp_effect_id (fun hstat => ?_) fun h =>
      ⟨stop h fun _ hw => hw.stat, stop h fun _ hw => hw.stat⟩
    simp only [wp_bind, wp_get]
    cases hget : files.get path with
    | none =>
      simp only [wp_bind]
      refine wp_stageUpload (fun hstaged => ?_) fun h =>
        ⟨fun _ => stop h fun _ hw => hw.staged, stop h fun _ hw => hw.staged⟩
      simp only [wp_bind, wp_effect]
      refine ⟨fun hlink => wp_verifyImported (hwrite path ?_), fun h => ?_, fun h => ?_⟩
      · exact ⟨inRange, hpath, hstat, not_verifies_of_absent hpath hget, hstaged, hlink,
          by simp [hget]⟩
      · exact stop (by simp [h]) fun _ hw => hw.link
      · exact stop (by simp [h]) fun _ hw => hw.link
    | some stored =>
      simp only [wp_ite]
      refine ⟨fun h => stop (by simp [h.2]) fun _ hw => hw.unverified, fun _ => ?_⟩
      simp only [wp_bind]
      refine wp_stageUpload (fun hstaged => ?_) fun h =>
        ⟨fun _ => stop h fun _ hw => hw.staged, stop h fun _ hw => hw.staged⟩
      simp only [wp_bind]
      refine wp_effect_id (fun hlink => ?_) fun h =>
        ⟨stop h fun _ hw => hw.link, stop h fun _ hw => hw.link⟩
      simp only [wp_ite]
      refine ⟨fun h => stop (by simp [h]) fun _ hw => hw.unverified, fun hverify => ?_⟩
      have renamed : ∀ other, Writes p keys faults files workloadID ref upload other →
          faults.rename = .none := by
        intro other hw
        have hother := samePath other hw
        subst hother
        exact hw.rename (by simp [hget])
      simp only [wp_bind, wp_effect]
      refine ⟨fun hrename => wp_verifyImported (hwrite path ?_), fun h => ?_, fun h => ?_⟩
      · exact ⟨inRange, hpath, hstat, by simpa using hverify, hstaged, hlink, fun _ => hrename⟩
      · exact stop (by simp [h]) renamed
      · exact stop (by simp [h]) renamed

structure Displaces (p : ChunkPrimitives) (keys : KeySource) (faults : ImportFaults)
    (files : Files) (workloadID : String) (ref : ChunkRef) (upload : Bytes) (path : String) :
    Prop where
  writes : Writes p keys faults files workloadID ref upload path
  loses : files.get path ≠ some upload ∨ faults.remove = .none

theorem get_imported_other {other : String} (h : other ≠ path) :
    (imported p keys faults files workloadID ref upload path).get other = files.get other := by
  unfold imported
  split
  · rw [get_set_other _ _ h]
  · split
    · rw [get_erase, if_neg h, get_set_other _ _ h]
    · rw [get_set_other _ _ h]

theorem get_imported_same (path : String) :
    (imported p keys faults files workloadID ref upload path).get path = some upload ∨
      (imported p keys faults files workloadID ref upload path).get path = none := by
  unfold imported
  split
  · simp
  · split
    · simp [get_erase]
    · simp

theorem get_imported_removed (hw : Writes p keys faults files workloadID ref upload path)
    (hsame : files.get path = some upload) (hremove : faults.remove = .none) :
    (imported p keys faults files workloadID ref upload path).get path = none := by
  have hget : (files.set path upload).get path = files.get path := by
    rw [get_set_same, hsame]
  have hverify : verifies p keys (files.set path upload) workloadID ref = false :=
    (verifies_congr hw.path_eq hget).trans hw.unverified
  unfold imported
  simp [hverify, hremove, get_erase]

theorem Displaces.get_ne {stored : Bytes}
    (hd : Displaces p keys faults files workloadID ref upload path)
    (hget : files.get path = some stored) :
    (imported p keys faults files workloadID ref upload path).get path ≠ some stored := by
  by_cases hsame : stored = upload
  · subst hsame
    rcases hd.loses with h | hremove
    · exact absurd hget h
    · simp [get_imported_removed hd.writes hget hremove]
  · rcases get_imported_same path with h | h
    · rw [h]
      simpa using Ne.symm hsame
    · simp [h]

theorem get_imported_kept (hsame : files.get path = some upload) (hremove : faults.remove ≠ .none) :
    (imported p keys faults files workloadID ref upload path).get path = files.get path := by
  unfold imported
  simp [hremove, hsame]

/-- A reference that verified before an import still does exactly when the import does not put other
bytes at its path, nor remove the bytes there. -/
theorem import_keeps_verifying_iff (hsha : Function.Injective p.sha256)
    {keptWorkload : String} {kept : ChunkRef}
    (hkept : verifies p keys files keptWorkload kept = true) :
    verifies p keys (importChunkResult p keys faults workloadID ref upload files).state
        keptWorkload kept = true ↔
      ¬ ∃ path, chunkPath kept = .ok path ∧
        Displaces p keys faults files workloadID ref upload path := by
  obtain ⟨path, stored, hpath, hget, hdigest⟩ := verifies_file hkept
  -- Whatever verifies against `kept` afterwards is the bytes that were there before.
  have sameBytes : ∀ t : Files, verifies p keys t keptWorkload kept = true →
      t.get path = some stored := by
    intro t ht
    obtain ⟨path', bytes, hpath', hget', hdigest'⟩ := verifies_file ht
    cases hpath.symm.trans hpath'
    rw [hget', hsha (hdigest'.trans hdigest.symm)]
  have keeps : ∀ t : Files, t.get path = files.get path →
      verifies p keys t keptWorkload kept = true := by
    intro t ht
    rw [verifies_congr hpath ht]
    exact hkept
  refine wp_always.mp (wp_importChunkResult
    (P := fun t => verifies p keys t keptWorkload kept = true ↔
      ¬ ∃ path, chunkPath kept = .ok path ∧
        Displaces p keys faults files workloadID ref upload path) ?_ ?_)
  · intro hnone
    refine ⟨fun _ => ?_, fun _ => hkept⟩
    rintro ⟨path', -, hd⟩
    exact hnone path' hd.writes
  · intro written hw
    constructor
    · rintro hafter ⟨path', hpath', hd⟩
      cases hpath.symm.trans hpath'
      have hwritten : path = written := by
        cases hd.writes.path_eq.symm.trans hw.path_eq
        rfl
      subst hwritten
      exact hd.get_ne hget (sameBytes _ hafter)
    · intro hnot
      refine keeps _ ?_
      by_cases hwritten : path = written
      · subst hwritten
        by_contra hchanged
        refine hnot ⟨path, hpath, hw, ?_⟩
        by_contra hloses
        obtain ⟨hsame, hremove⟩ := not_or.mp hloses
        exact hchanged (get_imported_kept (not_not.mp hsame) hremove)
      · exact get_imported_other hwritten

def plainPrimitives : ChunkPrimitives where
  hkdf dataKey _ _ :=
    if h : dataKey.length = keySize then ⟨dataKey, h⟩ else ⟨List.replicate keySize 0, by simp⟩
  gcmSeal key nonce plaintext _ := (key.val ++ nonce.val) ++ plaintext
  gcmOpen key nonce ciphertext _ :=
    if ciphertext.take (key.val ++ nonce.val).length = key.val ++ nonce.val then
      some (ciphertext.drop (key.val ++ nonce.val).length)
    else none
  digest workloadID := workloadID
  gcmOpen_gcmSeal key nonce plaintext aad := by
    rw [List.take_left, List.drop_left, if_pos rfl]
  sha256 bytes := String.ofList (bytes.map Char.ofUInt8)
  hmac _ _ := String.ofList (List.replicate 64 '0')
  zstdDecode compressed := some (compressed.drop 4)
  gzipRead _ _ := none

theorem sha256_plainPrimitives_injective : Function.Injective plainPrimitives.sha256 := by
  intro a b h
  have hchar : Function.Injective Char.ofUInt8 := by
    intro x y hxy
    exact UInt8.toUInt32_inj.mp (congrArg Char.val hxy)
  exact List.map_injective_iff.mpr hchar (String.ofList_inj.mp h)

def sampleKeys : KeySource := fun _ _ => .ok (List.replicate keySize 7)

def sampleChunk (byte : UInt8) : Bytes :=
  let nonce := List.replicate nonceSize byte
  let ciphertext := List.replicate keySize 7 ++ nonce ++ (zstdFrameMagic ++ [9])
  ((encodeChunk 1 1 nonce ciphertext).toOption).getD []

def sampleRef (byte : UInt8) : ChunkRef where
  address := String.ofList (List.replicate 64 '0')
  keyVersion := 1
  plainSize := 1
  storedSize := (sampleChunk byte).length
  cipherSHA256 := plainPrimitives.sha256 (sampleChunk byte)
  plainSHA256 := plainPrimitives.sha256 [9]

def sampleFiles : Files :=
  FileTable.empty.set ("chunks/v1/00/" ++ String.ofList (List.replicate 64 '0') ++ ".chunk")
    (sampleChunk 1)

def noImportFaults : ImportFaults where
  stat := .none
  mkdir := .none
  createTemp := .none
  chmod := .none
  copy := .none
  sync := .none
  close := .none
  link := .none
  rename := .none
  remove := .none

theorem reimport_keeps_verifying :
    verifies plainPrimitives sampleKeys
      (importChunkResult plainPrimitives sampleKeys noImportFaults "w" (sampleRef 1) (sampleChunk 1)
        sampleFiles).state "w" (sampleRef 1) = true := by
  have hkept : verifies plainPrimitives sampleKeys sampleFiles "w" (sampleRef 1) = true := by
    decide +kernel
  refine (import_keeps_verifying_iff sha256_plainPrimitives_injective hkept).mpr ?_
  rintro ⟨path, -, hd⟩
  rw [hd.writes.unverified] at hkept
  cases hkept

/-- A valid upload of the same plaintext under another nonce breaks the reference that verified
before. -/
theorem import_under_other_nonce_displaces :
    verifies plainPrimitives sampleKeys sampleFiles "w" (sampleRef 1) = true ∧
      (importChunkResult plainPrimitives sampleKeys noImportFaults "w" (sampleRef 2)
        (sampleChunk 2) sampleFiles).succeeded = true ∧
      verifies plainPrimitives sampleKeys
        (importChunkResult plainPrimitives sampleKeys noImportFaults "w" (sampleRef 2)
          (sampleChunk 2) sampleFiles).state "w" (sampleRef 1) = false := by
  decide +kernel

end Shiftgate.Chunkstore
