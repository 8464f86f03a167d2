import Shiftgate.Checkpoint.Mirror

/-! What an upload through the mirror leaves in the object store: the chunks of the checkpoint, each
with the size and the digest its reference pins, and the envelope of the manifest. -/

namespace Shiftgate.Checkpoint.Mirrors

open Library Securestore Chunkstore Checkpoint.Manifests Program Remote FileTable
  Checkpoint.Repository
open Objectstore (ObjectInfo PartInfo maxObjectSize validateKey)

variable {c : MirrorCodec}

def Keeps (r r' : Remote) : Prop :=
  ∀ key content, r.objects.get key = some content → r'.objects.get key = some content

theorem Keeps.refl (r : Remote) : Keeps r r := fun _ _ h => h

variable {r r' : Remote} {ref : ChunkRef} {content encoded : Bytes} {key id : String}
  {info : ObjectInfo} {size number : Int} {α : Type} {a : α} {files : Files}
  {uploadIDs : ChunkRef → String} {refs : List ChunkRef} {result : MirrorResult}
  {m : CheckpointManifest} {machine : Machine}

theorem Keeps.trans {r'' : Remote} (h : Keeps r r') (h' : Keeps r' r'') : Keeps r r'' :=
  fun key content hget => h' key content (h key content hget)

structure Mirrored (c : MirrorCodec) (r : Remote) (ref : ChunkRef) (content : Bytes) : Prop where
  key : validateKey (chunkObjectKey ref) = .ok ()
  get : r.objects.get (chunkObjectKey ref) = some content
  size : (content.length : Int) = ref.storedSize
  digest : c.equalFold (c.sha256 content) ref.cipherSHA256 = true

theorem Mirrored.keep (h : Mirrored c r ref content) (hkeeps : Keeps r r') :
    Mirrored c r' ref content :=
  ⟨h.key, hkeeps _ _ h.get, h.size, h.digest⟩

theorem Remote.commit_ok (h : r.commit c key content = .ok (info, r')) :
    info = describe c key content ∧ r'.objects.get key = some content ∧ Keeps r r' ∧
      r'.uploads = r.uploads := by
  unfold commit at h
  cases hget : r.objects.get key with
  | some existing =>
    simp only [hget] at h
    split at h
    · rename_i hsame
      cases h
      exact ⟨rfl, hsame ▸ hget, Keeps.refl r, rfl⟩
    · cases h
  | none =>
    simp only [hget] at h
    cases h
    refine ⟨rfl, get_set_same .., fun other bytes hother => ?_, rfl⟩
    have hne : other ≠ key := by
      rintro rfl
      rw [hget] at hother
      cases hother
    show (r.objects.set key content).get other = some bytes
    rw [get_set_other _ _ hne]
    exact hother

theorem Remote.put_ok {expected : String} (h : r.put c key content size expected = .ok (info, r')) :
    validateKey key = .ok () ∧ info = describe c key content ∧
      r'.objects.get key = some content ∧ Keeps r r' := by
  unfold put at h
  split at h
  · cases h
  · rename_i hkey
    split at h
    · cases h
    · split at h
      · cases h
      · obtain ⟨hinfo, hget, hkeeps, -⟩ := commit_ok h
        exact ⟨not_not.mp hkey, hinfo, hget, hkeeps⟩

theorem onStore_ok {step : Remote → Except StoreError (α × Remote)} :
    onStore step r = .ok a r' ↔ step r = .ok (a, r') := by
  unfold onStore
  cases step r with
  | ok found => constructor <;> (intro h; cases h; rfl)
  | error e => exact ⟨nofun, nofun⟩

theorem look_ok {read : Remote → Except StoreError α} :
    look read r = .ok a r' ↔ read r = .ok a ∧ r' = r := by
  rw [look, onStore_ok]
  cases read r with
  | error e => exact ⟨nofun, fun h => nomatch h.1⟩
  | ok found =>
    constructor
    · intro h
      cases h
      exact ⟨rfl, rfl⟩
    · rintro ⟨h, rfl⟩
      cases h
      rfl

def UploadOf (r : Remote) (id key : String) : Prop :=
  ∃ pending, r.uploads.get id = some pending ∧ pending.upload.key = key

theorem Remote.uploadPart_ok {part : PartInfo} (hid : UploadOf r id key)
    (h : r.uploadPart c id number content = .ok (part, r')) :
    r'.objects = r.objects ∧ UploadOf r' id key := by
  obtain ⟨pending, hget, hkey⟩ := hid
  unfold uploadPart at h
  split at h
  · cases h
  · simp only [hget] at h
    split at h
    · split at h
      · cases h
        exact ⟨rfl, pending, hget, hkey⟩
      · cases h
    · cases h
      exact ⟨rfl, _, get_set_same .., hkey⟩

theorem flushParts_ok {existing parts : List PartInfo} {pieces : List Bytes}
    (hid : UploadOf r id key) (h : flushParts c id existing number pieces r = .ok parts r') :
    r'.objects = r.objects ∧ UploadOf r' id key := by
  induction pieces generalizing number r parts with
  | nil =>
    cases h
    exact ⟨rfl, hid⟩
  | cons piece rest ih =>
    unfold flushParts at h
    dsimp only at h
    split at h
    · obtain ⟨_, _, hrest, hlast⟩ := bind_eq_ok.mp h
      cases hlast
      exact ih hid hrest
    · obtain ⟨part, r₁, hpart, h⟩ := bind_eq_ok.mp h
      obtain ⟨hobjects, hid₁⟩ := uploadPart_ok hid (onStore_ok.mp hpart)
      obtain ⟨_, r₂, hrest, hlast⟩ := bind_eq_ok.mp h
      cases hlast
      obtain ⟨hobjects₂, hid₂⟩ := ih hid₁ hrest
      exact ⟨hobjects₂.trans hobjects, hid₂⟩

variable {uploadID : String} {given : CheckpointManifest}

theorem findOrCreateMultipart_ok (h : findOrCreateMultipart c uploadID key ref r = .ok id r') :
    r'.objects = r.objects ∧ UploadOf r' id key := by
  unfold findOrCreateMultipart at h
  rw [get_bind_apply] at h
  generalize hfind : List.find? _ r.uploads.names = found at h
  cases found with
  | some found =>
    cases h
    have hany := List.find?_some hfind
    obtain ⟨pending, hget, hmatch⟩ := (Option.any_eq_true _ _).mp hany
    simp only [Bool.and_eq_true, decide_eq_true_eq] at hmatch
    exact ⟨rfl, pending, hget, hmatch.1.1⟩
  | none =>
    have hs := onStore_ok.mp h
    unfold initiateMultipart at hs
    split at hs
    · cases hs
    · split at hs
      · cases hs
      · cases hs
        exact ⟨rfl, _, get_set_same .., rfl⟩

theorem Remote.completeMultipart_ok {parts : List PartInfo} (hid : UploadOf r id key)
    (h : r.completeMultipart c id parts = .ok (info, r')) :
    ∃ content, info = describe c key content ∧ r'.objects.get key = some content ∧
      Keeps r r' := by
  obtain ⟨pending, hget, rfl⟩ := hid
  unfold completeMultipart at h
  simp only [hget] at h
  generalize (if parts.isEmpty = true then _ else parts) = listed at h
  split at h
  · cases h
  · cases hjoin : joinParts c pending.parts listed with
    | error e =>
      simp only [hjoin] at h
      cases h
    | ok content =>
      simp only [hjoin] at h
      split at h
      · cases h
      · split at h
        · cases h
        · cases hcommit : r.commit c pending.upload.key content with
          | error e =>
            rw [hcommit] at h
            cases h
          | ok found =>
            obtain ⟨foundInfo, r''⟩ := found
            rw [hcommit] at h
            cases h
            obtain ⟨hinfo, hcontent, hkeeps, -⟩ := commit_ok hcommit
            exact ⟨content, hinfo, hcontent, hkeeps⟩

theorem uploadChunk_ok (h : uploadChunk c files uploadID key ref r = .ok info r') :
    Keeps r r' ∧ ∃ content, info = describe c key content ∧ r'.objects.get key = some content := by
  unfold uploadChunk at h
  generalize exportChunk c files ref = exported at h
  cases exported with
  | error message => cases h
  | ok exported =>
    obtain ⟨sent, failure⟩ := exported
    dsimp only at h
    split at h
    · cases failure with
      | some message => cases h
      | none =>
        obtain ⟨-, hinfo, hget, hkeeps⟩ := put_ok (onStore_ok.mp h)
        exact ⟨hkeeps, sent, hinfo, hget⟩
    · unfold putMultipart at h
      obtain ⟨id, r₁, hfind, hrest⟩ := bind_eq_ok.mp h
      obtain ⟨hobjects₁, hid₁⟩ := findOrCreateMultipart_ok hfind
      obtain ⟨existing, r₂, hlook, hparts⟩ := bind_eq_ok.mp hrest
      obtain ⟨-, rfl⟩ := look_ok.mp hlook
      cases failure with
      | some message =>
        obtain ⟨_, _, -, hthrow⟩ := bind_eq_ok.mp hparts
        cases hthrow
      | none =>
        obtain ⟨parts, r₃, hflush, hcomplete⟩ := bind_eq_ok.mp hparts
        obtain ⟨hobjects₃, hid₃⟩ := flushParts_ok hid₁ hflush
        obtain ⟨content, hinfo, hget, hkeeps⟩ :=
          completeMultipart_ok hid₃ (onStore_ok.mp hcomplete)
        refine ⟨fun k bytes hk => hkeeps k bytes ?_, content, hinfo, hget⟩
        rw [hobjects₃, hobjects₁]
        exact hk

theorem verifyMirroredObject_ok {digest : String} :
    verifyMirroredObject c info size digest = .ok () ↔
      info.size = size ∧ c.equalFold info.sha256 digest = true := by
  unfold verifyMirroredObject
  split
  · rename_i h
    exact ⟨fun _ => h, fun _ => rfl⟩
  · rename_i h
    exact ⟨nofun, fun h' => absurd h' h⟩

theorem Remote.get_ok :
    r.get c key = .ok (info, content) ↔ validateKey key = .ok () ∧
      r.objects.get key = some content ∧ info = describe c key content := by
  unfold get
  split
  · rename_i hkey
    exact ⟨nofun, fun h => absurd h.1 hkey⟩
  · rename_i hkey
    cases r.objects.get key with
    | none => exact ⟨nofun, fun h => nomatch h.2.1⟩
    | some found =>
      constructor
      · intro h
        cases h
        exact ⟨not_not.mp hkey, rfl, rfl⟩
      · rintro ⟨-, h, rfl⟩
        cases h
        rfl

theorem Remote.head_ok (h : r.head c key = .ok info) : ∃ content, validateKey key = .ok () ∧
      r.objects.get key = some content ∧ info = describe c key content := by
  unfold head at h
  cases hget : r.get c key with
  | error e =>
    rw [hget] at h
    cases h
  | ok found =>
    obtain ⟨info', content⟩ := found
    rw [hget] at h
    cases h
    exact ⟨content, get_ok.mp hget⟩

theorem Remote.head_notFound (h : r.head c key = .error .notFound) : validateKey key = .ok () := by
  unfold head get at h
  split at h
  · cases h
  · rename_i hkey
    exact not_not.mp hkey

theorem Mirrored.of_info (hkey : validateKey (chunkObjectKey ref) = .ok ())
    (hget : r.objects.get (chunkObjectKey ref) = some content)
    (hverify : verifyMirroredObject c (describe c (chunkObjectKey ref) content) ref.storedSize
      ref.cipherSHA256 = .ok ()) : Mirrored c r ref content :=
  ⟨hkey, hget, (verifyMirroredObject_ok.mp hverify).1, (verifyMirroredObject_ok.mp hverify).2⟩

theorem uploadRef_ok (h : uploadRef c files uploadIDs ref r = .ok () r') :
    Keeps r r' ∧ ∃ content, Mirrored c r' ref content := by
  unfold uploadRef at h
  obtain ⟨answer, r₁, hlook, hrest⟩ := bind_eq_ok.mp h
  have hattempt : r₁ = r ∧ answer = (r.head c (chunkObjectKey ref)).mapError .store := by
    unfold attempt look onStore at hlook
    cases hhead : r.head c (chunkObjectKey ref) with
    | ok info | error e =>
      simp only [hhead, Except.map] at hlook
      cases hlook
      exact ⟨rfl, rfl⟩
  obtain ⟨rfl, rfl⟩ := hattempt
  cases hhead : r₁.head c (chunkObjectKey ref) with
  | ok info =>
    rw [hhead] at hrest
    obtain ⟨content, hkey, hget, rfl⟩ := head_ok hhead
    obtain ⟨hverify, rfl⟩ := liftExcept_eq_ok.mp hrest
    exact ⟨Keeps.refl _, content, .of_info hkey hget hverify⟩
  | error e =>
    rw [hhead] at hrest
    cases e with
    | notFound =>
      obtain ⟨info, r₂, hchunk, hlast⟩ := bind_eq_ok.mp hrest
      obtain ⟨hkeeps, content, rfl, hget⟩ := uploadChunk_ok hchunk
      obtain ⟨hverify, rfl⟩ := liftExcept_eq_ok.mp hlast
      exact ⟨hkeeps, content, .of_info (head_notFound hhead) hget hverify⟩
    | conflict | integrity | invalidKey | invalidPart | invalidUpload => cases hrest

theorem uploadRefs_ok {result' : MirrorResult}
    (h : uploadRefs c files uploadIDs refs result r = .ok result' r') :
    Keeps r r' ∧ ∀ ref ∈ refs, ∃ content, Mirrored c r' ref content := by
  induction refs generalizing result r with
  | nil =>
    cases h
    exact ⟨Keeps.refl _, by simp⟩
  | cons ref rest ih =>
    obtain ⟨_, r₁, hfirst, hrest⟩ := bind_eq_ok.mp h
    obtain ⟨hkeeps, content, hmirrored⟩ := uploadRef_ok hfirst
    obtain ⟨hkeeps', hothers⟩ := ih hrest
    refine ⟨hkeeps.trans hkeeps', fun other hother => ?_⟩
    rcases List.mem_cons.mp hother with rfl | hother
    · exact ⟨content, hmirrored.keep hkeeps'⟩
    · exact hothers other hother

theorem Mirrored.get_eq (h : Mirrored c r ref content) : r.get c (chunkObjectKey ref) =
    .ok (describe c (chunkObjectKey ref) content, content) :=
  get_ok.mpr ⟨h.key, h.get, rfl⟩

theorem uploadRef_mirrored (h : Mirrored c r ref content) :
    uploadRef c files uploadIDs ref r = .ok () r := by
  have hlook : attempt (look fun r => r.head c (chunkObjectKey ref)) r =
      .ok (.ok (describe c (chunkObjectKey ref) content)) r := by
    unfold attempt look onStore head
    simp only [h.get_eq, Except.map]
  have hverify : verifyMirroredObject c (describe c (chunkObjectKey ref) content) ref.storedSize
      ref.cipherSHA256 = .ok () := verifyMirroredObject_ok.mpr ⟨h.size, h.digest⟩
  unfold uploadRef
  refine bind_eq_ok.mpr ⟨_, r, hlook, ?_⟩
  exact liftExcept_eq_ok.mpr ⟨hverify, rfl⟩

theorem uploadRefs_mirrored (files : Files) (uploadIDs : ChunkRef → String) (result : MirrorResult)
    (h : ∀ ref ∈ refs, ∃ content, Mirrored c r ref content) :
    ∃ result', uploadRefs c files uploadIDs refs result r = .ok result' r := by
  induction refs generalizing result with
  | nil => exact ⟨result, rfl⟩
  | cons ref rest ih =>
    obtain ⟨content, hmirrored⟩ := h ref (List.mem_cons_self ..)
    obtain ⟨result', hrest⟩ := ih (result.add ref.storedSize)
      fun other hother => h other (List.mem_cons_of_mem _ hother)
    exact ⟨result', bind_eq_ok.mpr ⟨(), r, uploadRef_mirrored hmirrored, hrest⟩⟩

theorem mapError_ok {ε ε' : Type} {f : ε → ε'} {x : Except ε α} :
    x.mapError f = .ok a ↔ x = .ok a := by
  cases x with
  | ok b => exact ⟨fun h => congrArg _ (Except.ok.inj h), fun h => congrArg _ (Except.ok.inj h)⟩
  | error e => exact ⟨nofun, nofun⟩

structure Uploaded (c : MirrorCodec) (r : Remote) (m : CheckpointManifest) (encoded : Bytes) :
    Prop where
  chunks : ∀ ref ∈ uniqueChunkRefs m.assets, ∃ content, Mirrored c r ref content
  key : validateKey (checkpointManifestKey m.id) = .ok ()
  envelope : r.objects.get (checkpointManifestKey m.id) = some encoded

theorem Uploaded.keep (h : Uploaded c r m encoded) (hkeeps : Keeps r r') :
    Uploaded c r' m encoded where
  chunks ref href := by
    obtain ⟨content, hmirrored⟩ := h.chunks ref href
    exact ⟨content, hmirrored.keep hkeeps⟩
  key := h.key
  envelope := hkeeps _ _ h.envelope

theorem loadEncrypted_eq (machine : Machine) (id : String) :
    machine.loadEncrypted c id = stored c.toCodec machine.keys machine.cabinet id :=
  congrArg Prod.snd (loadEncryptedManifest_alone rfl id machine.cabinet)

theorem stored_ok {keys : KeySource} {s : Cabinet}
    (h : stored c.toCodec keys s id = .ok (m, encoded)) :
    ∃ summary, s.index.get id = some summary ∧ s.manifests.get id = some encoded ∧
      checkLoaded c.toCodec keys id summary encoded = .ok m := by
  unfold stored at h
  split at h
  · cases h
  · cases hindex : s.index.get id with
    | none =>
      simp only [hindex] at h
      cases h
    | some summary =>
      cases hfile : s.manifests.get id with
      | none =>
        simp only [hindex, hfile] at h
        cases h
      | some bytes =>
        simp only [hindex, hfile] at h
        cases hcheck : checkLoaded c.toCodec keys id summary bytes with
        | error e =>
          rw [hcheck] at h
          cases h
        | ok found =>
          rw [hcheck] at h
          cases h
          exact ⟨summary, rfl, rfl, hcheck⟩

theorem loadEncrypted_ok (h : machine.loadEncrypted c id = .ok (m, encoded)) :
    machine.cabinet.manifests.get id = some encoded ∧
      ∃ summary, Loaded c.toCodec machine.keys id summary encoded m := by
  rw [loadEncrypted_eq] at h
  obtain ⟨summary, -, hfile, hcheck⟩ := stored_ok h
  exact ⟨hfile, summary, checkLoaded_ok hcheck⟩

theorem upload_ok (h : upload c machine uploadIDs given r = .ok result r') :
    ∃ m encoded, machine.loadEncrypted c given.id = .ok (m, encoded) ∧
      verifyManifest c.toCodec given = .ok () ∧ m.manifestSHA256 = given.manifestSHA256 ∧
      m.id = given.id ∧ Keeps r r' ∧ Uploaded c r' m encoded := by
  unfold upload at h
  obtain ⟨_, hvalid, h₁⟩ := lift_bind_eq_ok.mp h
  obtain ⟨⟨m, encoded⟩, hread, h₂⟩ := lift_bind_eq_ok.mp h₁
  have hload := mapError_ok.mp hread
  obtain ⟨-, summary, hloaded⟩ := loadEncrypted_ok hload
  have hid := hloaded.id_eq
  dsimp only at h₂
  split at h₂
  · cases h₂
  · rename_i hhash
    obtain ⟨counted, r₁, hrefs, h₃⟩ := bind_eq_ok.mp h₂
    obtain ⟨hkeeps, hchunks⟩ := uploadRefs_ok hrefs
    obtain ⟨⟨m', encoded'⟩, hread', h₄⟩ := lift_bind_eq_ok.mp h₃
    cases hload.symm.trans (mapError_ok.mp hread')
    obtain ⟨info, r₂, hput, h₅⟩ := bind_eq_ok.mp h₄
    obtain ⟨hkey, -, hget, hkeeps'⟩ := put_ok (onStore_ok.mp hput)
    obtain ⟨_, -, h₆⟩ := lift_bind_eq_ok.mp h₅
    cases h₆
    refine ⟨m, encoded, hload, mapError_ok.mp hvalid, not_not.mp hhash, hid,
      hkeeps.trans hkeeps', ?_, hid ▸ hkey, hid ▸ hget⟩
    intro ref href
    obtain ⟨content, hmirrored⟩ := hchunks ref href
    exact ⟨content, hmirrored.keep hkeeps'⟩

/-- Where the chunks are, an upload succeeds exactly when the envelope there is the machine's own.
-/
theorem upload_again {there : Bytes} (hload : machine.loadEncrypted c given.id = .ok (m, encoded))
    (hverify : verifyManifest c.toCodec given = .ok ())
    (hhash : m.manifestSHA256 = given.manifestSHA256) (h : Uploaded c r m there) :
    (upload c machine uploadIDs given r).succeeded = true ↔ encoded = there := by
  obtain ⟨-, summary, hloaded⟩ := loadEncrypted_ok hload
  constructor
  · intro hsucceeded
    cases hupload : upload c machine uploadIDs given r with
    | ok result r' =>
      obtain ⟨m', encoded', hload', -, -, -, hkeeps, huploaded⟩ := upload_ok hupload
      cases hload.symm.trans hload'
      have := hkeeps _ _ h.envelope
      rw [huploaded.envelope] at this
      exact Option.some.inj this
    | error e r' | crash r' =>
      rw [hupload] at hsucceeded
      cases hsucceeded
  · rintro rfl
    obtain ⟨result, hrefs⟩ :=
      uploadRefs_mirrored machine.files uploadIDs ⟨given.id, 0, 0⟩ h.chunks
    have hsize : ¬ ((encoded.length : Int) < 0 ∨ (encoded.length : Int) > maxObjectSize ∨
        (encoded.length : Int) ≠ encoded.length) := by
      have := hloaded.size
      unfold maxEncryptedManifestBytes at this
      unfold maxObjectSize
      omega
    have hput : r.put c (checkpointManifestKey given.id) encoded encoded.length
        (c.sha256 encoded) = .ok (describe c (checkpointManifestKey given.id) encoded, r) := by
      have hkey := h.key
      have henvelope := h.envelope
      rw [hloaded.id_eq] at hkey henvelope
      unfold put Remote.commit
      rw [if_neg (not_not.mpr hkey), if_neg hsize, if_neg (by simp [c.equalFold_refl])]
      simp only [henvelope, if_true]
    have hrun : upload c machine uploadIDs given r =
        .ok (result.add encoded.length) r := by
      unfold upload
      refine lift_bind_eq_ok.mpr ⟨(), mapError_ok.mpr hverify, ?_⟩
      refine lift_bind_eq_ok.mpr ⟨(m, encoded), mapError_ok.mpr hload, ?_⟩
      dsimp only
      rw [if_neg (not_not.mpr hhash)]
      refine bind_eq_ok.mpr ⟨result, r, hrefs, ?_⟩
      refine lift_bind_eq_ok.mpr ⟨(m, encoded), mapError_ok.mpr hload, ?_⟩
      refine bind_eq_ok.mpr ⟨_, r, onStore_ok.mpr hput, ?_⟩
      refine lift_bind_eq_ok.mpr ⟨(), ?_, rfl⟩
      exact verifyMirroredObject_ok.mpr ⟨rfl, c.equalFold_refl _⟩
    rw [hrun]
    rfl

end Shiftgate.Checkpoint.Mirrors
