import Shiftgate.Library.FileTable

/-! The digest binding of `cmd/shift-release`: the artifacts of the signed releases against the
files of a directory and the members of a tarball. -/

namespace Shiftgate.Update

open Library

structure Artifact where
  component : String
  os : String
  architecture : String
  url : String
  sha256 : String

structure Release where
  version : String
  artifacts : List Artifact

structure Member where
  name : String
  regular : Bool
  content : List UInt8

structure Tarball where
  bytes : List UInt8
  members : Except String (List Member)
  sidecar : Except String (List String)

/-- The standard library and the version of an executable; `path` is that of a URL. -/
structure Env (V : Type) where
  base : String → String
  path : String → Option String
  lower : String → String
  sha256 : List UInt8 → String
  parseVersion : String → Except String V
  sameRelease : V → V → Bool
  probeVersion : (name component : String) → Except String V

/-- `tarball` says which of the two sources an artifact was compared with. -/
inductive BindError where
  | unread (reason : String)
  | malformedSidecar
  | sidecar (recorded actual : String)
  | version (release reason : String)
  | missing (tarball : Bool) (release name : String) (artifact : Artifact)
  | digest (tarball : Bool) (release name measured signed : String)
  | probe (release name reason : String)
  | otherVersion (release name : String)
  | nothingToBind

section Binding

variable {V : Type} (env : Env V)

def artifactName (a : Artifact) : String := env.base ((env.path a.url).getD a.url)

/-- `measureDirectory`, and `measureTarball` by base names: a later entry replaces an earlier. -/
def measure (name : String → String) (members : List Member) : FileTable String :=
  members.foldl (fun digests m =>
    if m.regular then digests.set (name m.name) (env.sha256 m.content) else digests) .empty

def checkTarballSidecar (t : Tarball) : Option BindError :=
  match t.sidecar with
  | .error reason => some (.unread reason)
  | .ok [] => some .malformedSidecar
  | .ok (recorded :: _) =>
    if env.sha256 t.bytes ≠ env.lower recorded then some (.sidecar recorded (env.sha256 t.bytes))
    else none

def compareDigest (tarball : Bool) (release : String) (a : Artifact) (digests : FileTable String) :
    Option BindError :=
  match digests.get (artifactName env a) with
  | none => some (.missing tarball release (artifactName env a) a)
  | some digest =>
    if digest ≠ a.sha256 then some (.digest tarball release (artifactName env a) digest a.sha256)
    else none

def checkVersion (release : String) (expected : V) (a : Artifact) : Option BindError :=
  match env.probeVersion (artifactName env a) a.component with
  | .error reason => some (.probe release (artifactName env a) reason)
  | .ok reported =>
    if env.sameRelease reported expected then none
    else some (.otherVersion release (artifactName env a))

def bindArtifact (files members : Option (FileTable String)) (release : String) (expected : V)
    (a : Artifact) : Option BindError :=
  (files.bind fun files =>
      (compareDigest env false release a files).or (checkVersion env release expected a)).or
    ((members.bind (compareDigest env true release a)).or
      (if files.isNone && members.isNone then some .nothingToBind else none))

def bindDigests (directory : Option (Except String (List Member))) (tarball : Option Tarball)
    (releases : List Release) : Option BindError :=
  match directory.mapM (·.map (measure env id)),
      tarball.mapM (·.members.map (measure env env.base)) with
  | .error reason, _ | _, .error reason => some (.unread reason)
  | .ok files, .ok members =>
    (tarball.bind (checkTarballSidecar env)).or (releases.findSome? fun release =>
      match env.parseVersion release.version with
      | .error reason => some (.version release.version reason)
      | .ok expected =>
        release.artifacts.findSome? (bindArtifact env files members release.version expected))

theorem measure_get {name : String → String} {members : List Member} {key digest : String}
    (h : (measure env name members).get key = some digest) :
    ∃ m ∈ members, m.regular = true ∧ name m.name = key ∧ env.sha256 m.content = digest := by
  induction members using List.reverseRecOn with
  | nil => cases h
  | append_singleton rest m ih =>
    rw [measure, List.foldl_append, List.foldl_cons, List.foldl_nil] at h
    split_ifs at h with hregular
    · rw [FileTable.get_set] at h
      split_ifs at h with hkey
      · exact ⟨m, by simp, hregular, hkey.symm, Option.some.inj h⟩
      · obtain ⟨m', hm', hrest⟩ := ih h
        exact ⟨m', by simp [hm'], hrest⟩
    · obtain ⟨m', hm', hrest⟩ := ih h
      exact ⟨m', by simp [hm'], hrest⟩

variable {d : Option (Except String (List Member))} {t : Tarball} {members : List Member}
  {releases : List Release}

/-- Some member has the name of the artifact and its digest. -/
theorem bindDigests_none (h : bindDigests env d (some t) releases = none)
    (hread : t.members = .ok members) {r : Release} (hr : r ∈ releases) {a : Artifact}
    (ha : a ∈ r.artifacts) :
    ∃ m ∈ members, m.regular = true ∧ env.base m.name = artifactName env a ∧
      env.sha256 m.content = a.sha256 := by
  apply measure_get
  rw [bindDigests] at h
  simp only [Option.mapM_some, hread] at h
  split at h
  · cases h
  · cases h
  · rename_i hmembers
    cases hmembers
    rw [Option.or_eq_none_iff, List.findSome?_eq_none_iff] at h
    have hrelease := h.2 r hr
    split at hrelease
    · cases hrelease
    · have hbound := List.findSome?_eq_none_iff.mp hrelease a ha
      simp only [bindArtifact, Option.or_eq_none_iff, Option.bind_some, compareDigest] at hbound
      split at hbound <;> simp_all

end Binding

namespace Sample

def env : Env Unit where
  base name := String.ofList ((name.toList.splitOn '/').getLastD [])
  path := some
  lower := id
  sha256 bytes := String.ofList (bytes.map fun b => Char.ofNat b.toNat)
  parseVersion _ := .ok ()
  sameRelease _ _ := true
  probeVersion _ _ := .ok ()

def tarball (members : List Member) : Tarball := ⟨[49], .ok members, .ok ["1"]⟩

def release : Release := ⟨"1.0.0", [⟨"cli", "linux", "amd64", "https://host/shift", "2"⟩]⟩

def shadowed : List Member := [⟨"bin/shift", true, [51]⟩, ⟨"shift", true, [50]⟩]

end Sample

end Shiftgate.Update
