import Shiftgate.Checkpoint.Manifest
import Shiftgate.Chunkstore.RoundTrip

/-! What the projection of a manifest tells about the data it redacts: the number of a command's
arguments, and the unkeyed plaintext digest of each asset, which `Public` clears only of chunks. -/

namespace Shiftgate.Checkpoint.Manifests

open Library Securestore Chunkstore List

def WorkloadSpec.blank (s : WorkloadSpec) : WorkloadSpec :=
  { s with environment := [], command := s.command.take 1, paths := [], healthCheck := none }

def blankAsset (asset : AssetManifest) : AssetManifest :=
  { asset with sha256 := "", chunks := asset.chunks.map publicChunk }

def CheckpointManifest.unsigned (m : CheckpointManifest) : CheckpointManifest :=
  { m with manifestSHA256 := "", security := { m.security with manifestSignature := "" } }

/-- The manifest without what depends on the environment, the arguments, the declared paths, the
health check or the plaintext of the assets, sizes and addresses apart. -/
def CheckpointManifest.blank (m : CheckpointManifest) : CheckpointManifest :=
  { m.unsigned with workload := m.workload.blank, assets := m.assets.map blankAsset }

/-- The manifests differ in redacted data, hash and signature alone. -/
def Twins (m m' : CheckpointManifest) : Prop := m.blank = m'.blank

def Matches (m m' : CheckpointManifest) : Prop := m.unsigned = m'.unsigned

instance (m m' : CheckpointManifest) : Decidable (Twins m m') :=
  inferInstanceAs (Decidable (m.blank = m'.blank))

instance (m m' : CheckpointManifest) : Decidable (Matches m m') :=
  inferInstanceAs (Decidable (m.unsigned = m'.unsigned))

theorem redactArguments_eq_iff {command command' : List String}
    (h : command.take 1 = command'.take 1) :
    redactArguments command = redactArguments command' ↔ command.length = command'.length := by
  cases command with
  | nil =>
    cases command' with
    | nil => simp
    | cons program arguments => simp at h
  | cons program arguments =>
    cases command' with
    | nil => simp at h
    | cons program' arguments' =>
      have hprogram : program = program' := by simpa using h
      simp [redactArguments, hprogram]

theorem WorkloadSpec.public_eq_iff {s s' : WorkloadSpec} (h : s.blank = s'.blank) :
    s.public = s'.public ↔ s.command.length = s'.command.length := by
  simp only [WorkloadSpec.blank, WorkloadSpec.mk.injEq] at h
  rw [← redactArguments_eq_iff h.2.2.1]
  simp only [WorkloadSpec.public, WorkloadSpec.mk.injEq, h, true_and, and_true]

theorem publicAsset_eq_iff {a a' : AssetManifest} (h : blankAsset a = blankAsset a') :
    publicAsset a = publicAsset a' ↔ a.sha256 = a'.sha256 := by
  simp only [blankAsset, AssetManifest.mk.injEq] at h
  simp only [publicAsset, AssetManifest.mk.injEq, h, true_and, and_true]

theorem publicAssets_eq_iff {assets assets' : List AssetManifest}
    (h : assets.map blankAsset = assets'.map blankAsset) :
    assets.map publicAsset = assets'.map publicAsset ↔
      assets.map (·.sha256) = assets'.map (·.sha256) := by
  induction assets generalizing assets' with
  | nil =>
    cases assets' with
    | nil => simp
    | cons a' assets' => simp at h
  | cons a assets ih =>
    cases assets' with
    | nil => simp at h
    | cons a' assets' =>
      simp only [map_cons, List.cons.injEq] at h ⊢
      rw [publicAsset_eq_iff h.1, ih h.2]

/-- Twins match in projection where the commands have as many arguments and the assets the same
plaintext digests. -/
theorem matches_public_iff {m m' : CheckpointManifest} (h : Twins m m') :
    Matches m.public m'.public ↔
      m.workload.command.length = m'.workload.command.length ∧
        m.assets.map (·.sha256) = m'.assets.map (·.sha256) := by
  simp only [Twins, CheckpointManifest.blank, CheckpointManifest.unsigned,
    CheckpointManifest.mk.injEq] at h
  obtain ⟨hformat, hversion, hid, hparent, hkind, hworkload, hidentity, hmachine, hcreated, hengine,
    hassets, hinventory, hfilesystem, hdependencies, hdevices, hbytes, hmetrics, hsecurity, -,
    hcompatibility⟩ := h
  rw [← WorkloadSpec.public_eq_iff hworkload, ← publicAssets_eq_iff hassets]
  simp only [Matches, CheckpointManifest.unsigned, CheckpointManifest.public,
    CheckpointManifest.mk.injEq, hformat, hversion, hid, hparent, hkind, hidentity, hmachine,
    hcreated, hengine, hinventory, hfilesystem, hdependencies, hdevices, hbytes, hmetrics,
    hsecurity, hcompatibility, true_and, and_true]

theorem redactArguments_redactArguments (command : List String) :
    redactArguments (redactArguments command) = redactArguments command := by
  cases command with
  | nil => rfl
  | cons program arguments => simp [redactArguments]

theorem WorkloadSpec.public_public (s : WorkloadSpec) : s.public.public = s.public := by
  simp only [WorkloadSpec.public, redactArguments_redactArguments]

theorem publicAsset_publicAsset (a : AssetManifest) :
    publicAsset (publicAsset a) = publicAsset a := by
  simp only [publicAsset, map_map]
  rfl

theorem CheckpointManifest.public_public (m : CheckpointManifest) : m.public.public = m.public := by
  have hassets : (m.assets.map publicAsset).map publicAsset = m.assets.map publicAsset := by
    rw [map_map]
    exact map_congr_left fun a _ => publicAsset_publicAsset a
  simp only [CheckpointManifest.public, WorkloadSpec.public_public, hassets]

theorem publicManifestJSON_reconcileManifest {δ : Type} (json : ManifestJSON δ)
    (m : CheckpointManifest) :
    publicManifestJSON json (reconcileManifest json m) = .ok (reconcileManifest json m) := by
  simp only [publicManifestJSON, reconcileManifest, json.unmarshal_marshal]
  exact congrArg (fun projection => Except.ok (json.marshal projection)) m.public_public

variable {workloadID : String} {keyVersion : UInt32}

theorem putChunks_returns {p : AssetPrimitives} {keys : KeySource} {size : ChunkSize}
    {world : PutWorld} {dataKey : Bytes} {asset : AssetManifest} {whole : Bytes}
    {deduplicated : Int} {sequence : Nat} {reader : Bytes} :
    Returns (putChunks p keys size world workloadID keyVersion dataKey asset whole deduplicated
      sequence reader) fun result => result.asset.sha256 = p.sha256 (whole ++ reader) := by
  -- The stream gets shorter with each full buffer.
  induction hlength : reader.length using Nat.strongRecOn generalizing asset whole deduplicated
    sequence reader with
  | ind length ih =>
    rw [putChunks]
    refine (Returns.any _).bind fun _ _ => (Returns.any _).bind fun _ _ => ?_
    split
    · rename_i hempty
      refine Returns.pure ?_
      rw [hempty, append_nil]
    · rename_i hne
      refine (Returns.any _).bind ?_
      rintro ⟨ref, existed⟩ -
      dsimp only
      split
      · rename_i hshort
        have hall : reader.take size.val = reader := by
          rw [length_take] at hshort
          exact take_of_length_le (by omega)
        refine Returns.pure ?_
        rw [hall]
      · have hdrop : whole ++ reader = whole ++ reader.take size.val ++ reader.drop size.val := by
          rw [append_assoc, take_append_drop]
        have hpos := size.pos
        have hreader : 0 < reader.length := length_pos_iff.mpr hne
        rw [hdrop]
        refine ih _ ?_ rfl
        rw [length_drop]
        omega

variable {δ : Type} {service : Service δ}

theorem captureDirectory_returns {world : StoreWorld} {assetName : String} {archive : Archive}
    {restoreOrder : Int} :
    Returns (captureDirectory service world workloadID assetName archive restoreOrder)
      fun result => result.asset.sha256 = service.primitives.sha256 archive.bytes := by
  have hput : Returns (putAsset service.primitives world.size world.keys world.put workloadID
      assetName "application/vnd.shift.filesystem-tar" archive.bytes true restoreOrder)
      fun result => result.asset.sha256 = service.primitives.sha256 archive.bytes := by
    unfold putAsset
    split
    · exact Returns.throw _
    · refine (Returns.any _).bind fun key _ => (Returns.any _).bind fun s _ => ?_
      exact Returns.zoom _ _ putChunks_returns
  refine hput.bind fun result hresult => ?_
  cases archive.failure with
  | none => exact Returns.pure hresult
  | some failure => exact Returns.throw _

theorem passes_returns {pass : Nat} {archives : List (StoreWorld × Archive)} :
    Returns (passes service workloadID keyVersion pass archives) fun results =>
      results.map (·.asset.sha256) =
        archives.map fun archive => service.primitives.sha256 archive.2.bytes := by
  induction archives generalizing pass with
  | nil => exact Returns.pure rfl
  | cons archive archives ih =>
    refine captureDirectory_returns.bind fun result hresult => ?_
    refine (Returns.any _).bind fun _ _ => ih.bind fun results hresults => ?_
    refine Returns.pure ?_
    rw [map_cons, map_cons, hresult, hresults]

@[simp] theorem signManifest_assets (m : CheckpointManifest) :
    (signManifest service m).assets = m.assets := rfl

/-- The manifests that the service makes, with the plaintext of their assets. -/
inductive Produced (service : Service δ) : CheckpointManifest → List Bytes → Prop
  | create {world : CreateWorld} {o : Observed} {parentImages : Bool} {s t : Shelf}
      {m : CheckpointManifest} (h : create service world o parentImages s = .ok m t) :
      Produced service m [o.root.bytes, o.images.bytes]
  | finalize {world : CreateWorld} {o : Observed} {archives : List (StoreWorld × Archive)}
      {s t : Shelf} {m : CheckpointManifest} (h : finalize service world o archives s = .ok m t) :
      Produced service m (o.root.bytes :: o.images.bytes :: archives.map (·.2.bytes))
  | captureFork {world : CreateWorld} {o : Observed} {forked : CheckpointManifest} {s t : Shelf}
      {m : CheckpointManifest} (h : captureFork service world o forked s = .ok m t) :
      Produced service m [o.root.bytes, o.images.bytes]

theorem Produced.digests {m : CheckpointManifest} {texts : List Bytes}
    (h : Produced service m texts) :
    m.assets.map (·.sha256) = texts.map service.primitives.sha256 := by
  let Digests (texts : List Bytes) (m : CheckpointManifest) : Prop :=
    m.assets.map (·.sha256) = texts.map service.primitives.sha256
  cases h with
  | create h | captureFork h =>
    refine (?_ : Returns _ (Digests [_, _])) _ m _ h
    refine captureDirectory_returns.bind fun images himages => ?_
    refine captureDirectory_returns.bind fun root hroot => ?_
    refine (Returns.any _).bind fun keyVersion _ => Returns.pure ?_
    simp [Digests, himages, hroot]
  | @finalize _ o archives s t _ h =>
    refine (?_ : Returns _ (Digests (o.root.bytes :: o.images.bytes :: archives.map _))) s m t h
    refine (Returns.any _).bind fun keyVersion _ => ?_
    refine passes_returns.bind fun results hresults => ?_
    refine captureDirectory_returns.bind fun images himages => (Returns.any _).bind fun _ _ => ?_
    refine captureDirectory_returns.bind fun root hroot => (Returns.any _).bind fun _ _ => ?_
    refine Returns.pure ?_
    simp only [Digests, signManifest_assets, map_cons, map_map, himages, hroot]
    exact congrArg _ (congrArg _ hresults)

/-- The projections of two manifests that differ in redacted data alone match exactly where the
commands have as many arguments and each asset's plaintext has the digest of its counterpart; and a
projection is its own projection, in the control plane's document too. -/
theorem projections_match_iff {m m' : CheckpointManifest} {texts texts' : List Bytes}
    (hm : Produced service m texts) (hm' : Produced service m' texts') (htwins : Twins m m') :
    (Matches m.public m'.public ↔
      m.workload.command.length = m'.workload.command.length ∧
        texts.map service.primitives.sha256 = texts'.map service.primitives.sha256) ∧
      m.public.public = m.public ∧
      publicManifestJSON service.json (reconcileManifest service.json m) =
        .ok (reconcileManifest service.json m) := by
  refine ⟨?_, m.public_public, publicManifestJSON_reconcileManifest service.json m⟩
  rw [matches_public_iff htwins, hm.digests, hm'.digests]

def padPrimitives : AssetPrimitives :=
  { clearPrimitives with
    gcmSeal := fun key _ plaintext _ => List.replicate tagSize 0 ++
      (plaintext.take 4 ++ (plaintext.drop 4).map (· + key.val.headD 0))
    gcmOpen := fun key _ ciphertext _ => some ((ciphertext.drop tagSize).take 4 ++
      ((ciphertext.drop tagSize).drop 4).map (· - key.val.headD 0))
    gcmOpen_gcmSeal := by
      intro key nonce plaintext aad
      have htag : (List.replicate tagSize (0 : UInt8)).length = tagSize := length_replicate
      rw [drop_left' htag]
      rcases Nat.lt_or_ge plaintext.length 4 with hshort | hlong
      · simp [take_of_length_le (Nat.le_of_lt hshort), drop_of_length_le (Nat.le_of_lt hshort)]
      · have hfour : (plaintext.take 4).length = 4 := length_take_of_le hlong
        rw [take_left' hfour, drop_left' hfour, map_map]
        simp [Function.comp_def]
    gcmSeal_length := by
      intro key nonce plaintext aad
      simp only [length_append, length_replicate, length_map, length_take, length_drop]
      omega }

def plainJSON : ManifestJSON CheckpointManifest where
  marshal := id
  unmarshal := .ok
  bytes := fun _ => []
  unmarshal_marshal := fun _ => rfl

def sampleService : Service CheckpointManifest where
  primitives := padPrimitives
  json := plainJSON
  identity := { machine := ⟨"source", "source", ""⟩, sign := fun digest => digest }

def sampleObserved (environment : List (String × String)) (byte : UInt8) : Observed where
  checkpointID := "c"
  workload := sampleWorkload environment
  options := ⟨.full, "", true, false⟩
  images := ⟨[byte], none⟩
  root := ⟨[byte], none⟩
  machine := sampleMachine
  filesystem := ⟨"ext4", "", true, 0, 0, 0⟩
  dependencies := []
  criuVersion := "4.0"
  startedAt := 0
  freezeStartedAt := 0
  completedAt := 0

def emptyShelf : Shelf :=
  let opened := (exec (KeyRun.step padPrimitives.toPrimitives none) .init
    [.reopen .none true (sampleKey 1) sampleNonce]).getD .init
  ⟨FileTable.empty, opened.disk, opened.manager.getD
    { keyring := { formatVersion := 0, activeVersion := 0, keys := [] }, wrapKey := none }⟩

def sampleCreate (fill : UInt8) (environment : List (String × String)) (byte : UInt8) :
    Outcome Shelf String CheckpointManifest :=
  let keys : KeyWorld := ⟨.none, sampleKey fill, sampleNonce⟩
  let world : StoreWorld := ⟨smallChunks, keys, quietWorld⟩
  create sampleService ⟨world, world, keys⟩ (sampleObserved environment byte) false emptyShelf

theorem environment_not_shown :
    ∃ m m', Produced sampleService m [[9], [9]] ∧ Produced sampleService m' [[9], [9]] ∧
      Twins m m' ∧ m.workload.environment ≠ m'.workload.environment ∧
      Matches m.public m'.public := by
  obtain ⟨m, _, h, m', _, h', htwins, hlength, hdiffer⟩ :
      ∃ m s, sampleCreate 7 [("TOKEN", "a")] 9 = .ok m s ∧
        ∃ m' s', sampleCreate 7 [("TOKEN", "b")] 9 = .ok m' s' ∧ Twins m m' ∧
          m.workload.command.length = m'.workload.command.length ∧
          m.workload.environment ≠ m'.workload.environment := by decide +kernel
  have hm : Produced sampleService m [[9], [9]] := .create h
  have hm' : Produced sampleService m' [[9], [9]] := .create h'
  exact ⟨m, m', hm, hm', htwins, hdiffer,
    (projections_match_iff hm hm' htwins).1.mpr ⟨hlength, rfl⟩⟩

/-- Two checkpoints whose chunks have the same addresses, sizes and ciphertexts, under different
keys: the projections tell the digests of their plaintexts. -/
theorem plaintext_digest_shown :
    ∃ m m', Produced sampleService m [[9], [9]] ∧ Produced sampleService m' [[10], [10]] ∧
      Twins m m' ∧ ¬ Matches m.public m'.public ∧
      m.public.assets.map (·.sha256) = [padPrimitives.sha256 [9], padPrimitives.sha256 [9]] ∧
      m'.public.assets.map (·.sha256) = [padPrimitives.sha256 [10], padPrimitives.sha256 [10]] := by
  obtain ⟨m, _, h, m', _, h', hshown⟩ : ∃ m s, sampleCreate 7 [] 9 = .ok m s ∧
      ∃ m' s', sampleCreate 6 [] 10 = .ok m' s' ∧ Twins m m' ∧ ¬ Matches m.public m'.public ∧
        m.public.assets.map (·.sha256) = [padPrimitives.sha256 [9], padPrimitives.sha256 [9]] ∧
        m'.public.assets.map (·.sha256) =
          [padPrimitives.sha256 [10], padPrimitives.sha256 [10]] := by decide +kernel
  exact ⟨m, m', .create h, .create h', hshown⟩

end Shiftgate.Checkpoint.Manifests
