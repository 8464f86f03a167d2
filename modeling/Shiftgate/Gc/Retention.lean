import Shiftgate.Gc.Collector
import Shiftgate.Chunkstore.Import

/-! What the collector leaves in place. A sweep deletes only files outside the references it scanned
under the guard, so a manifest that a writer installed under the guard keeps its files. -/

namespace Shiftgate.Gc

open Library Securestore Chunkstore List Option FileTable

/-- The captures that hold the guard from first chunk to manifest. -/
def Origin.guardedCapture : Origin → Bool
  | .handler | .policy => true
  | _ => false

variable {o : Origin} {ref : ChunkRef} {files : Files} {workloadID : String} {keyVersion : UInt32}
  {nonce : Nonce} {ok : Bool} {referenced : List String} {point : WriterPoint}

theorem Origin.guardedCapture_holdsGuard (h : o.guardedCapture = true) : o.holdsGuard = true := by
  cases o <;> first | rfl | cases h

def WriterPoint.chunks : WriterPoint → List ChunkRef
  | .resolving chunks => chunks
  | .saving m | .writing m | .indexing m => m.chunks
  | _ => []

theorem Manifest.mem_paths {m : Manifest} {path : String} (href : ref ∈ m.chunks)
    (hpath : chunkPath ref = .ok path) : path ∈ m.paths :=
  mem_filterMap.mpr ⟨ref, href, by rw [hpath]; rfl⟩

namespace Agent

def present (a : Agent) (path : String) : Bool := (a.files.get path).isSome

def Kept (a : Agent) (path : String) : Prop := a.present path = true ∨ path ∈ a.refused

def Keeps (a : Agent) (ref : ChunkRef) : Prop := ∃ path, chunkPath ref = .ok path ∧ a.Kept path

def Holds (a : Agent) (e : Installed) : Prop := a.manifests.get e.manifest.id = some e

instance (a : Agent) (e : Installed) : Decidable (a.Holds e) :=
  inferInstanceAs (Decidable (_ = _))

inductive Change (a : Agent) : Agent → Prop where
  | clock (now : Nat) : Change a { a with now := now }
  | started (w : Writer) (hchunks : w.origin.guardedCapture = true → w.point.chunks = [])
      (hguard : w.origin.holdsGuard = true → a.collector.exclusive = false) :
      Change a { a with writers := a.writers ++ [w] }
  | moved (i : Nat) (w : Writer) (point : WriterPoint) (hw : a.writers[i]? = some w)
      (hactive : w.point = .done → point = .done)
      (hchunks : ∀ ref ∈ point.chunks,
        ref ∈ w.point.chunks ∨ ∃ path, chunkPath ref = .ok path ∧ a.present path = true) :
      Change a (a.setPoint i w point)
  | stored (i : Nat) (w : Writer) (point : WriterPoint) (path : String) (bytes : Bytes)
      (hw : a.writers[i]? = some w) (hactive : w.point ≠ .done)
      (hchunks : ∀ ref ∈ point.chunks, ref ∈ w.point.chunks ∨ chunkPath ref = .ok path) :
      Change a ((a.store path bytes).setPoint i w point)
  | refusedUpload (i : Nat) (w : Writer) (path : String) (hw : a.writers[i]? = some w) :
      Change a ({ a.unlink path with refused := path :: a.refused }.setPoint i w .done)
  | wrote (i : Nat) (w : Writer) (m : Manifest) (hw : a.writers[i]? = some w)
      (hpoint : w.point = .writing m) :
      Change a ({ a with manifests := a.manifests.set m.id ⟨m, w.origin⟩ }.setPoint i w
        (.indexing m))
  | erased (i : Nat) (w : Writer) (id : String) (hw : a.writers[i]? = some w) :
      Change a ({ a with manifests := a.manifests.erase id }.setPoint i w .done)
  | indexed (i : Nat) (w : Writer) (index : FileTable String) (point : WriterPoint)
      (hw : a.writers[i]? = some w) (hactive : w.point ≠ .done) (hchunks : point.chunks = []) :
      Change a ({ a with index := index }.setPoint i w point)
  | collected (c : Collecting) (orphans : FileTable Nat) (plans : FileTable Plan)
      (hguard : c.exclusive = true → a.collector.exclusive = true ∨ a.shared = false)
      (hscan : ∀ plan now referenced, c = .sweeping plan now referenced →
        (∃ plan' now', a.collector = .sweeping plan' now' referenced) ∨
          a.referencedChunks = some referenced) :
      Change a { a with collector := c, orphans := orphans, plans := plans }
  | swept (path : String) (plan plan' : Plan) (now : Nat) (referenced : List String)
      (plans : FileTable Plan) (hsweep : a.collector = .sweeping plan now referenced)
      (hpath : path ∉ referenced) :
      Change a { a.unlink path with collector := .sweeping plan' now referenced, plans := plans }
  | crashed : Change a { a with writers := [], collector := .idle }

section Step

variable {p : ChunkPrimitives} {keys : KeySource} {a b : Agent} {i : Nat} {w : Writer}

theorem resolveChunk_ok {plaintext encoded : Bytes} {resolved : ChunkRef} {path : String}
    {new : Option Bytes}
    (h : resolveChunk p keys files workloadID plaintext ref path encoded = .ok (resolved, new)) :
    chunkPath resolved = chunkPath ref ∧
      (new = none → (files.get path).isSome = true) := by
  unfold resolveChunk at h
  split at h
  · cases h
    exact ⟨rfl, fun h => (by cases h)⟩
  · rename_i stored hget
    simp only at h
    split at h
    · split at h
      · cases h
        exact ⟨rfl, fun _ => by simp [hget]⟩
      · cases h
    · split at h <;> cases h

theorem putChunk_ok {plaintext compressed : Bytes} {resolved : ChunkRef}
    {new : Option (String × Bytes)}
    (h : putChunk p keys files workloadID keyVersion nonce plaintext compressed =
      .ok (resolved, new)) :
    ∃ path, chunkPath resolved = .ok path ∧
      ((new = none ∧ (files.get path).isSome = true) ∨ ∃ bytes, new = some (path, bytes)) := by
  unfold putChunk at h
  split at h
  · cases h
  rename_i ref encoded _
  split at h
  · cases h
  rename_i path hpath
  split at h
  · cases h
  rename_i found stored hresolve
  cases h
  obtain ⟨hsame, hfile⟩ := resolveChunk_ok hresolve
  refine ⟨path, hsame.trans hpath, ?_⟩
  cases stored with
  | none => exact .inl ⟨rfl, hfile rfl⟩
  | some bytes => exact .inr ⟨bytes, rfl⟩

section

variable (hw : a.writers[i]? = some w)

include hw

theorem Change.done : Change a (a.setPoint i w .done) :=
  .moved i w .done hw (fun _ => rfl) fun _ h => (by cases h)

theorem putStep_change {chunks : List ChunkRef} {plaintext compressed : Bytes}
    (hpoint : w.point = .resolving chunks) :
    Change a (a.putStep p keys i w chunks workloadID keyVersion nonce plaintext compressed) := by
  have hactive : w.point ≠ .done := by simp [hpoint]
  have hmore : ∀ {resolved ref}, ref ∈ (WriterPoint.resolving (chunks ++ [resolved])).chunks →
      ref ∈ w.point.chunks ∨ ref = resolved := by
    intro resolved ref href
    rw [hpoint]
    simpa [WriterPoint.chunks] using href
  unfold putStep
  split
  · exact .done hw
  · rename_i resolved hput
    obtain ⟨path, hpath, ⟨-, hfile⟩ | ⟨bytes, hnew⟩⟩ := putChunk_ok hput
    · refine .moved i w _ hw (fun h => absurd h hactive) fun ref href => ?_
      rcases hmore href with hold | rfl
      · exact .inl hold
      · exact .inr ⟨path, hpath, hfile⟩
    · cases hnew
  · rename_i resolved path encoded hput
    obtain ⟨found, hpath, ⟨hnew, -⟩ | ⟨bytes, hnew⟩⟩ := putChunk_ok hput
    · cases hnew
    · cases hnew
      refine .stored i w _ _ _ hw hactive fun ref href => ?_
      rcases hmore href with hold | rfl
      · exact .inl hold
      · exact .inr hpath

theorem repositoryStep_change (h : a.repositoryStep i w ok = some b) : Change a b := by
  unfold repositoryStep at h
  split at h
  · rename_i m hpoint
    have hmoved : Change a (a.setPoint i w (.writing m)) :=
      .moved i w _ hw (fun h => by simp [hpoint] at h) fun ref href =>
        .inl (by rw [hpoint]; exact href)
    split at h <;> cases h
    · exact hmoved
    · exact .done hw
  · rename_i m hpoint
    split at h <;> cases h
    · exact .wrote i w m hw hpoint
    · exact .done hw
  · rename_i m hpoint
    split at h <;> cases h
    · exact .indexed i w _ .done hw (by simp [hpoint]) rfl
    · exact .erased i w m.id hw
  · rename_i id hpoint
    split at h <;> cases h
    · exact .indexed i w _ (.removing id) hw (by simp [hpoint]) rfl
    · exact .done hw
  · rename_i id hpoint
    split at h <;> cases h
    · exact .erased i w id hw
    · exact .done hw
  · cases h

theorem uploadStep_change (h : a.uploadStep p keys i w ok = some b) : Change a b := by
  unfold uploadStep at h
  split at h
  · rename_i workloadID ref upload hpoint
    split at h
    · cases h
      exact .done hw
    · split at h <;> cases h
      · exact .done hw
      · exact .stored i w _ _ _ hw (by simp [hpoint]) fun _ href => (by cases href)
  · split at h
    · cases h
      exact .done hw
    · split at h <;> cases h
      · exact .done hw
      · unfold refuse
        split
        · exact .refusedUpload i w _ hw
        · exact .done hw
  · cases h

end

theorem sweepCandidate_cases (a : Agent) (now : Nat) (referenced : List String) (c : Candidate) :
    (a.sweepCandidate now referenced c).1 = a ∨
      c.path ∉ referenced ∧ (a.sweepCandidate now referenced c).1 = a.unlink c.path := by
  unfold sweepCandidate
  split
  · exact .inl rfl
  split
  · exact .inl rfl
  split
  · exact .inl rfl
  · rename_i hpath
    split
    · exact .inl rfl
    · rename_i b hdelete
      refine .inr ⟨hpath, ?_⟩
      unfold deleteRef at hdelete
      split at hdelete
      · cases hdelete
      · split at hdelete <;> cases hdelete
        rfl

theorem sweepNext_change {plan : Plan} {now : Nat} {c : Candidate}
    (hsweep : a.collector = .sweeping plan now referenced) :
    Change a (a.sweepNext plan now referenced c) := by
  simp only [sweepNext]
  generalize (a.sweepCandidate now referenced c).2 = candidate
  obtain hkept | ⟨hpath, hdeleted⟩ := sweepCandidate_cases a now referenced c
  · rw [hkept]
    have stays : ∀ plan' plans,
        Change a { a with collector := .sweeping plan' now referenced, plans := plans } :=
      fun plan' plans => .collected _ a.orphans plans (fun _ => .inl (by rw [hsweep]; rfl))
        fun _ _ _ h => (by cases h; exact .inl ⟨plan, now, hsweep⟩)
    split <;> exact stays _ _
  · rw [hdeleted]
    split <;> exact .swept c.path plan _ now referenced _ hsweep hpath

theorem collectStep_change (h : a.collectStep ok = some b) : Change a b := by
  have idles : ∀ plans, Change a { a with collector := .idle, plans := plans } :=
    fun plans => .collected .idle a.orphans plans (fun h => (by cases h))
      fun _ _ _ h => (by cases h)
  unfold collectStep at h
  split at h
  · cases h
  · rename_i hplanning
    split at h <;> cases h
    · exact .collected _ a.orphans a.plans (fun _ => .inl (by rw [hplanning]; rfl))
        fun _ _ _ h => (by cases h)
    · exact idles a.plans
  · split at h <;> cases h
    · exact .collected _ a.orphans a.plans (fun h => (by cases h)) fun _ _ _ h => (by cases h)
    · exact idles a.plans
  · split at h <;> cases h
    · exact .collected _ _ a.plans (fun h => (by cases h)) fun _ _ _ h => (by cases h)
    · exact idles a.plans
  · split at h <;> cases h <;> exact idles _
  · rename_i plan now hscanning
    split at h <;> cases h
    · rename_i referenced hscan
      exact .collected _ a.orphans a.plans (fun _ => .inl (by rw [hscanning]; rfl))
        fun _ _ _ h => (by cases h; exact .inr hscan)
    · exact idles _
  · rename_i plan now referenced hsweep
    split at h
    · cases h
      exact idles _
    · split at h <;> cases h
      · exact sweepNext_change hsweep
      · exact idles _

theorem Task.entry_chunks (task : Task) (hserved : task.servedBy o = true)
    (hcapture : o.guardedCapture = true) : task.entry.chunks = [] := by
  cases task with
  | importManifest m => cases o <;> simp_all [Task.servedBy, Origin.guardedCapture]
  | _ => rfl

theorem step_change {act : Action} (h : a.step p keys act = some b) : Change a b := by
  cases act with
  | tick seconds =>
    cases h
    exact .clock _
  | start origin task =>
    obtain ⟨⟨hserved, hguard⟩, h⟩ := ite_none_right_eq_some.mp h
    cases h
    exact .started _ (fun hcapture => task.entry_chunks hserved hcapture) hguard
  | put i workloadID keyVersion nonce plaintext compressed =>
    simp only [step] at h
    split at h
    · rename_i w hw
      split at h
      · cases h
        exact putStep_change hw ‹_›
      · cases h
    · cases h
  | save i id manifestSHA256 =>
    simp only [step] at h
    split at h
    · rename_i w hw
      split at h
      · rename_i chunks hpoint
        cases h
        exact .moved i w _ hw (fun h => by simp [hpoint] at h) fun ref href =>
          .inl (by rw [hpoint]; exact href)
      · cases h
    · cases h
  | advance i ok =>
    simp only [step] at h
    split at h
    · rename_i w hw
      split at h
      · rename_i hstep
        cases h
        exact repositoryStep_change hw hstep
      · exact uploadStep_change hw h
    · cases h
  | abandon i =>
    simp only [step] at h
    split at h
    · cases h
      exact .done ‹_›
    · cases h
  | plan id grace =>
    obtain ⟨⟨-, hshared⟩, h⟩ := ite_none_right_eq_some.mp h
    cases h
    exact .collected _ a.orphans a.plans (fun _ => .inr hshared) fun _ _ _ h => (by cases h)
  | sweep id =>
    simp only [step] at h
    split at h
    · obtain ⟨⟨-, hshared⟩, h⟩ := ite_none_right_eq_some.mp h
      cases h
      exact .collected _ a.orphans a.plans (fun _ => .inr hshared) fun _ _ _ h => (by cases h)
    · cases h
  | collect ok => exact collectStep_change h
  | crash =>
    cases h
    exact .crashed

end Step

/-- The guard excludes its writers from a collector that holds it; a running sweep has scanned every
manifest of a guarded writer; and the files of a guarded capture or its manifest are kept. -/
structure Retained (a : Agent) : Prop where
  excluded : a.collector.exclusive = true → a.shared = false
  scanned : ∀ plan now referenced, a.collector = .sweeping plan now referenced →
    ∀ e, a.Holds e → e.origin.holdsGuard = true → ∀ path ∈ e.manifest.paths, path ∈ referenced
  installed : ∀ e, a.Holds e → e.origin.guardedCapture = true →
    ∀ ref ∈ e.manifest.chunks, a.Keeps ref
  relied : ∀ w ∈ a.writers, w.origin.guardedCapture = true → ∀ ref ∈ w.point.chunks, a.Keeps ref

section Invariant

variable {a b : Agent} {e : Installed} {path : String}

theorem referencedChunks_mem (h : a.referencedChunks = some referenced) (he : a.Holds e)
    (hpath : path ∈ e.manifest.paths) : path ∈ referenced := by
  obtain ⟨-, h⟩ := ite_none_right_eq_some.mp h
  cases h
  exact mem_flatMap.mpr ⟨(e.manifest.id, e), mem_entries_of_get he, hpath⟩

theorem shared_eq_true {w : Writer} (hw : w ∈ a.writers) (hguard : w.origin.holdsGuard = true)
    (hactive : w.point ≠ .done) : a.shared = true :=
  List.any_eq_true.mpr ⟨w, hw, by simp [hguard, hactive]⟩

theorem shared_eq_false :
    a.shared = false ↔ ∀ w ∈ a.writers, w.origin.holdsGuard = true → w.point = .done := by
  simp [shared]

theorem shared_set {i : Nat} {w : Writer} (hw : a.writers[i]? = some w)
    (hactive : w.point = .done → point = .done) (hshared : a.shared = false) :
    ({ a with writers := a.writers.set i { w with point := point } } : Agent).shared = false := by
  rw [shared_eq_false] at hshared ⊢
  intro w' hw' hguard
  rcases mem_or_eq_of_mem_set hw' with hold | rfl
  · exact hshared w' hold hguard
  · exact hactive (hshared w (mem_of_getElem? hw) hguard)

theorem kept_store (path other : String) (bytes : Bytes) (h : a.Kept other) :
    (a.store path bytes).Kept other := by
  by_cases heq : other = path
  · exact .inl (by simp [present, store, heq])
  · refine h.imp (fun hfile => ?_) fun hrefused => ?_
    · simpa [present, store, get_set_other _ _ heq] using hfile
    · simpa [store, heq] using hrefused

theorem kept_stored (path : String) (bytes : Bytes) : (a.store path bytes).Kept path :=
  .inl (by simp [present, store])

theorem kept_unlink {path other : String} (hne : other ≠ path) (h : a.Kept other) :
    (a.unlink path).Kept other :=
  h.imp_left fun hfile => by simpa [present, unlink, get_erase, hne] using hfile

theorem kept_refused (path other : String) (h : a.Kept other) :
    ({ a.unlink path with refused := path :: a.refused } : Agent).Kept other := by
  by_cases heq : other = path
  · exact .inr (by simp [heq])
  · exact (kept_unlink heq h).imp_right fun hrefused => mem_cons_of_mem _ hrefused

theorem Keeps.imp (h : a.Keeps ref) (hkept : ∀ path, a.Kept path → b.Kept path) : b.Keeps ref := by
  obtain ⟨path, hpath, h⟩ := h
  exact ⟨path, hpath, hkept path h⟩

theorem relied_set {i : Nat} {w : Writer} (ha : Retained a)
    (hkept : ∀ path, a.Kept path → b.Kept path)
    (hpoint : w.origin.guardedCapture = true → ∀ ref ∈ point.chunks, b.Keeps ref) :
    ∀ w' ∈ a.writers.set i { w with point := point }, w'.origin.guardedCapture = true →
      ∀ ref ∈ w'.point.chunks, b.Keeps ref := by
  intro w' hw' hcapture ref href
  rcases mem_or_eq_of_mem_set hw' with hold | rfl
  · exact (ha.relied w' hold hcapture ref href).imp hkept
  · exact hpoint hcapture ref href

theorem Retained.change (ha : Retained a) (h : Change a b) : Retained b := by
  cases h with
  | clock now => exact ⟨ha.excluded, ha.scanned, ha.installed, ha.relied⟩
  | started w hchunks hguard =>
    refine ⟨fun hex => ?_, ha.scanned, ha.installed, fun w' hw' hcapture ref href => ?_⟩
    · have hold := shared_eq_false.mp (ha.excluded hex)
      refine shared_eq_false.mpr fun w' hw' hholds => ?_
      rcases mem_append.mp hw' with hw' | hw'
      · exact hold w' hw' hholds
      · cases mem_singleton.mp hw'
        cases (hguard hholds).symm.trans hex
    · rcases mem_append.mp hw' with hw' | hw'
      · exact ha.relied w' hw' hcapture ref href
      · cases mem_singleton.mp hw'
        rw [hchunks hcapture] at href
        cases href
  | moved i w point hw hactive hchunks =>
    refine ⟨fun hex => shared_set hw hactive (ha.excluded hex), ha.scanned, ha.installed,
      relied_set (a := a) ha (fun _ hkept => hkept) fun hcapture ref href => ?_⟩
    rcases hchunks ref href with hold | ⟨path, hpath, hfile⟩
    · exact ha.relied w (mem_of_getElem? hw) hcapture ref hold
    · exact ⟨path, hpath, .inl hfile⟩
  | stored i w point path bytes hw hactive hchunks =>
    have hkept := fun other => kept_store (a := a) path other bytes
    refine ⟨fun hex => shared_set hw (fun h => absurd h hactive) (ha.excluded hex), ha.scanned,
      fun e he hcapture ref href => (ha.installed e he hcapture ref href).imp hkept,
      relied_set (a := a) ha hkept fun hcapture ref href => ?_⟩
    rcases hchunks ref href with hold | hpath
    · exact (ha.relied w (mem_of_getElem? hw) hcapture ref hold).imp hkept
    · exact ⟨path, hpath, kept_stored path bytes⟩
  | refusedUpload i w path hw =>
    have hkept := fun other => kept_refused (a := a) path other
    exact ⟨fun hex => shared_set hw (fun _ => rfl) (ha.excluded hex), ha.scanned,
      fun e he hcapture ref href => (ha.installed e he hcapture ref href).imp hkept,
      relied_set (a := a) ha hkept fun _ _ href => (by cases href)⟩
  | wrote i w m hw hpoint =>
    have hmem := mem_of_getElem? hw
    have hactive : w.point ≠ .done := by simp [hpoint]
    have hrelied : w.origin.guardedCapture = true → ∀ ref ∈ m.chunks, a.Keeps ref :=
      fun hcapture ref href => ha.relied w hmem hcapture ref (by rw [hpoint]; exact href)
    refine ⟨fun hex => shared_set hw (fun h => absurd h hactive) (ha.excluded hex), ?_, ?_,
      relied_set (a := a) ha (fun _ hkept => hkept) hrelied⟩
    · intro plan now referenced hsweep e he hholds path hpath
      by_cases hid : e.manifest.id = m.id
      · -- A writer with the guard cannot stand here during a sweep.
        obtain rfl : e = ⟨m, w.origin⟩ := by simpa [Holds, setPoint, hid] using he.symm
        have hfree := ha.excluded (by rw [show a.collector = _ from hsweep]; rfl)
        rw [shared_eq_true hmem hholds hactive] at hfree
        cases hfree
      · refine ha.scanned plan now referenced hsweep e ?_ hholds path hpath
        simpa [Holds, setPoint, get_set_other _ _ hid] using he
    · intro e he hcapture ref href
      by_cases hid : e.manifest.id = m.id
      · obtain rfl : e = ⟨m, w.origin⟩ := by simpa [Holds, setPoint, hid] using he.symm
        exact hrelied hcapture ref href
      · refine ha.installed e ?_ hcapture ref href
        simpa [Holds, setPoint, get_set_other _ _ hid] using he
  | erased i w id hw =>
    have hholds : ∀ e, ({ a with manifests := a.manifests.erase id }.setPoint i w .done).Holds e →
        a.Holds e := by
      intro e he
      unfold Holds setPoint at he
      rw [get_erase] at he
      exact (ite_none_left_eq_some.mp he).2
    exact ⟨fun hex => shared_set hw (fun _ => rfl) (ha.excluded hex),
      fun plan now referenced hsweep e he => ha.scanned plan now referenced hsweep e (hholds e he),
      fun e he => ha.installed e (hholds e he),
      relied_set (a := a) ha (fun _ hkept => hkept) fun _ _ href => (by cases href)⟩
  | indexed i w index point hw hactive hchunks =>
    exact ⟨fun hex => shared_set hw (fun h => absurd h hactive) (ha.excluded hex), ha.scanned,
      ha.installed, relied_set (a := a) ha (fun _ hkept => hkept) fun _ _ href => (by
        rw [hchunks] at href
        cases href)⟩
  | collected c orphans plans hguard hscan =>
    refine ⟨fun hex => ?_, fun plan now referenced hsweep e he hholds path hpath => ?_,
      ha.installed, ha.relied⟩
    · rcases hguard hex with hold | hfree
      · exact ha.excluded hold
      · exact hfree
    · rcases hscan plan now referenced hsweep with ⟨plan', now', hold⟩ | hfresh
      · exact ha.scanned plan' now' referenced hold e he hholds path hpath
      · exact referencedChunks_mem hfresh he hpath
  | swept path plan plan' now referenced plans hsweep hpath =>
    have hfree := shared_eq_false.mp (ha.excluded (by rw [hsweep]; rfl))
    refine ⟨fun _ => shared_eq_false.mpr hfree, ?_, ?_, ?_⟩
    · intro plan'' now'' referenced' hcollector e he hholds other hother
      cases hcollector
      exact ha.scanned plan now referenced hsweep e he hholds other hother
    · intro e he hcapture ref href
      obtain ⟨other, hother, hkept⟩ := ha.installed e he hcapture ref href
      have hscanned := ha.scanned plan now referenced hsweep e he
        (Origin.guardedCapture_holdsGuard hcapture) other (Manifest.mem_paths href hother)
      exact ⟨other, hother, kept_unlink (fun heq => hpath (heq ▸ hscanned)) hkept⟩
    · intro w hw hcapture ref href
      rw [hfree w hw (Origin.guardedCapture_holdsGuard hcapture)] at href
      cases href
  | crashed =>
    exact ⟨fun hex => (by cases hex), fun _ _ _ hsweep => (by cases hsweep), ha.installed,
      fun _ hw => (by cases hw)⟩

theorem Retained.kept (ha : Retained a) (h : Change a b) (he : a.Holds e)
    (hholds : e.origin.holdsGuard = true) (hpath : path ∈ e.manifest.paths) (hkept : a.Kept path) :
    b.Kept path := by
  cases h with
  | stored i w point stored bytes => exact kept_store stored path bytes hkept
  | refusedUpload i w refused => exact kept_refused refused path hkept
  | swept swept plan plan' now referenced plans hsweep hswept =>
    have hscanned := ha.scanned plan now referenced hsweep e he hholds path hpath
    exact kept_unlink (fun heq => hswept (heq ▸ hscanned)) hkept
  | _ => exact hkept

end Invariant

def initial : Agent where
  files := .empty
  modified := .empty
  refused := []
  manifests := .empty
  index := .empty
  writers := []
  collector := .idle
  orphans := .empty
  plans := .empty
  now := 0

theorem initial_retained : Retained initial where
  excluded := fun hex => (by cases hex)
  scanned := fun _ _ _ hsweep => (by cases hsweep)
  installed := fun _ he => (by cases he)
  relied := fun _ hw => (by cases hw)

section Runs

variable {p : ChunkPrimitives} {keys : KeySource} {as : List Action}

theorem Retained.run {s t : Agent} (hs : Retained s) (h : exec (step p keys) s as = some t) :
    Retained t :=
  Reachable.invariant Retained (fun _ _ _ hr hstep => hr.change (step_change hstep)) hs ⟨as, h⟩

theorem Retained.kept_run {s t : Agent} {e : Installed} {path : String} (hs : Retained s)
    (hholds : e.origin.holdsGuard = true) (hpath : path ∈ e.manifest.paths) (hkept : s.Kept path)
    (hheld : Meets (step p keys) (fun u _ => u.Holds e) s as)
    (h : exec (step p keys) s as = some t) : t.Kept path := by
  refine (exec_invariant (fun u => Retained u ∧ u.Kept path) ?_ ⟨hs, hkept⟩ hheld h).2
  rintro u act v ⟨hu, hkept⟩ he hstep
  exact ⟨hu.change (step_change hstep), hu.kept (step_change hstep) he hholds hpath hkept⟩

end Runs

def samplePut (writer : Nat) : Action :=
  .put writer "w" 1 ⟨List.replicate nonceSize 1, by decide⟩ [9] (zstdFrameMagic ++ [9])

def samplePlan (id : String) : List Action :=
  [.plan id 0, .collect true, .collect true, .collect true, .collect true]

def sampleSweep (id : String) : List Action :=
  [.sweep id, .collect true, .collect true, .collect true]

def orphanedChunk : List Action :=
  [.start .handler .capture, samplePut 0, .abandon 0, .tick 7200] ++ samplePlan "first" ++
    sampleSweep "first" ++ [.tick 7200] ++ samplePlan "second"

def saveCapture (writer : Nat) : List Action :=
  [.save writer "c" "hash", .advance writer true, .advance writer true, .advance writer true]

def guardedCaptureRun : List Action :=
  orphanedChunk ++ [.start .policy .capture, samplePut 1] ++ saveCapture 1 ++ sampleSweep "second"

def migrationCaptureRun : List Action :=
  orphanedChunk ++ [.start .migration .capture, samplePut 1] ++ sampleSweep "second" ++
    saveCapture 1

def peerImportRun : List Action :=
  [.start .peer (.importManifest ⟨"c", "hash", [sampleRef 1]⟩), .advance 0 true, .advance 0 true,
    .advance 0 true]

def samplePath : String := "chunks/v1/00/" ++ String.ofList (List.replicate 64 '0') ++ ".chunk"

def lacksChunk (a : Agent) (origin : Origin) : Bool :=
  decide (a.Holds ⟨⟨"c", "hash", [sampleRef 1]⟩, origin⟩) && !a.present samplePath &&
    decide (samplePath ∉ a.refused)

end Agent

end Shiftgate.Gc
