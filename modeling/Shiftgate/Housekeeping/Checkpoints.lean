import Mathlib.Data.Prod.Lex
import Shiftgate.Library.Closure
import Shiftgate.Library.Runs

/-! The checkpoint step of `EnforceRetention` (`internal/database/capabilities.go`): one statement
that marks old checkpoints deleted, run in batches until one is not full. The collation is any
linear order; a day has 86400 seconds. -/

namespace Shiftgate.Housekeeping

open Library List

inductive CheckpointStatus where
  | creating
  | available
  | corrupt
  | deleted
  deriving DecidableEq

def CheckpointStatus.live : CheckpointStatus → Bool
  | .creating | .available => true
  | .corrupt | .deleted => false

variable {Id : Type}

structure Checkpoint (Id : Type) where
  id : Id
  organizationID : String
  workloadID : String
  parentID : Option Id
  status : CheckpointStatus
  createdAt : Int
  deriving DecidableEq

structure Table (Id : Type) where
  rows : List (Checkpoint Id)
  unique : (rows.map (·.id)).Nodup

variable {c : Checkpoint Id} {ids : List Id} {rows : List (Checkpoint Id)}

theorem id_unique (table : Table Id) {d : Checkpoint Id} (hc : c ∈ table.rows) (hd : d ∈ table.rows)
    (hid : c.id = d.id) : c = d :=
  inj_on_of_nodup_map table.unique hc hd hid

/-- `checkpoint_retention_days` of the organizations that have a policy. -/
abbrev Policies := String → Option Nat

def retentionDays (policies : Policies) (organizationID : String) : Nat :=
  (policies organizationID).getD 90

def pastWindow (policies : Policies) (now : Int) (c : Checkpoint Id) : Bool :=
  0 < retentionDays policies c.organizationID &&
    c.createdAt < now - 86400 * retentionDays policies c.organizationID

def sameWorkload (c d : Checkpoint Id) : Bool :=
  c.organizationID = d.organizationID && c.workloadID = d.workloadID

theorem sameWorkload_trans {d e : Checkpoint Id} (h : sameWorkload c d = true)
    (h' : sameWorkload d e = true) : sameWorkload c e = true := by
  simp only [sameWorkload, Bool.and_eq_true, decide_eq_true_eq] at *
  exact ⟨h.1.trans h'.1, h.2.trans h'.2⟩

variable [LinearOrder Id]

def age (c : Checkpoint Id) : Int ×ₗ Id := toLex (c.createdAt, c.id)

def isNewest (rows : List (Checkpoint Id)) (c : Checkpoint Id) : Bool :=
  c.status.live && rows.all fun d => !(d.status.live && sameWorkload d c && age c < age d)

def newestPerWorkload (rows : List (Checkpoint Id)) : List Id :=
  (rows.filter (isNewest rows)).map (·.id)

def parentIDs (rows : List (Checkpoint Id)) (id : Id) : List Id :=
  (rows.filter fun c => c.id = id).flatMap fun c =>
    (rows.filter fun d => some d.id = c.parentID).map (·.id)

def protectedIDs (rows : List (Checkpoint Id)) : List Id :=
  recursiveUnion (parentIDs rows) rows.length (newestPerWorkload rows)

def eligible (policies : Policies) (now : Int) (rows : List (Checkpoint Id)) :
    List (Checkpoint Id) :=
  rows.filter fun c => c.status.live && pastWindow policies now c && c.id ∉ protectedIDs rows

def mark (ids : List Id) (c : Checkpoint Id) : Checkpoint Id :=
  if c.id ∈ ids then { c with status := .deleted } else c

def markDeleted (ids : List Id) (rows : List (Checkpoint Id)) : List (Checkpoint Id) :=
  rows.map (mark ids)

def housekeepingBatch : Nat := 1000

structure Batch (Id : Type) where
  now : Int
  chosen : List Id

/-- The database may keep any eligible rows, up to the limit. -/
def Batch.allowed (policies : Policies) (rows : List (Checkpoint Id)) (b : Batch Id) : Prop :=
  b.chosen.Nodup ∧ (∀ id ∈ b.chosen, id ∈ (eligible policies b.now rows).map (·.id)) ∧
    b.chosen.length = min housekeepingBatch (eligible policies b.now rows).length

instance (policies : Policies) (rows : List (Checkpoint Id)) (b : Batch Id) :
    Decidable (b.allowed policies rows) :=
  inferInstanceAs (Decidable (_ ∧ _ ∧ _))

structure Sweep (Id : Type) where
  rows : List (Checkpoint Id)
  clock : Int
  finished : Bool

def step (policies : Policies) (s : Sweep Id) (b : Batch Id) : Option (Sweep Id) :=
  if s.finished = false ∧ s.clock ≤ b.now ∧ b.allowed policies s.rows then
    some ⟨markDeleted b.chosen s.rows, b.now, b.chosen.length < housekeepingBatch⟩
  else none

def start (table : Table Id) (now : Int) : Sweep Id := ⟨table.rows, now, false⟩

@[simp] theorem mark_id (ids : List Id) (c : Checkpoint Id) : (mark ids c).id = c.id := by
  unfold mark
  split <;> rfl

@[simp] theorem mark_parentID (ids : List Id) (c : Checkpoint Id) :
    (mark ids c).parentID = c.parentID := by
  unfold mark
  split <;> rfl

@[simp] theorem mark_age (ids : List Id) (c : Checkpoint Id) : age (mark ids c) = age c := by
  unfold mark
  split <;> rfl

@[simp] theorem mark_pastWindow (policies : Policies) (now : Int) (ids : List Id)
    (c : Checkpoint Id) : pastWindow policies now (mark ids c) = pastWindow policies now c := by
  unfold mark
  split <;> rfl

@[simp] theorem mark_sameWorkload (ids : List Id) (c d : Checkpoint Id) :
    sameWorkload (mark ids c) (mark ids d) = sameWorkload c d := by
  unfold mark
  split <;> split <;> rfl

theorem mark_live (ids : List Id) (c : Checkpoint Id) :
    (mark ids c).status.live = (c.status.live && decide (c.id ∉ ids)) := by
  unfold mark
  split
  · rename_i h
    simp [h, CheckpointStatus.live]
  · rename_i h
    simp [h]

theorem mark_available : (mark ids c).status = .available ↔ c.status = .available ∧ c.id ∉ ids := by
  unfold mark
  split
  · rename_i h
    simp [h]
  · rename_i h
    simp [h]

theorem markDeleted_nil (rows : List (Checkpoint Id)) : markDeleted [] rows = rows := by
  have hmark : (mark [] : Checkpoint Id → Checkpoint Id) = id := by
    funext c
    simp [mark]
  rw [markDeleted, hmark, map_id]

theorem mark_mark (ids more : List Id) (c : Checkpoint Id) :
    mark more (mark ids c) = mark (ids ++ more) c := by
  by_cases h : c.id ∈ ids <;> by_cases h' : c.id ∈ more <;> simp [mark, h, h']

theorem markDeleted_append (ids more : List Id) (rows : List (Checkpoint Id)) :
    markDeleted more (markDeleted ids rows) = markDeleted (ids ++ more) rows := by
  simp [markDeleted, Function.comp_def, mark_mark]

@[simp] theorem length_markDeleted (ids : List Id) (rows : List (Checkpoint Id)) :
    (markDeleted ids rows).length = rows.length :=
  length_map _

@[simp] theorem parentIDs_markDeleted (ids : List Id) (rows : List (Checkpoint Id)) :
    parentIDs (markDeleted ids rows) = parentIDs rows := by
  funext id
  simp [parentIDs, markDeleted, filter_map, flatMap_map, Function.comp_def]

theorem isNewest_iff :
    isNewest rows c = true ↔ c.status.live = true ∧
      ∀ d ∈ rows, d.status.live = true → sameWorkload d c = true → ¬ age c < age d := by
  simp only [isNewest, Bool.and_eq_true, all_eq_true, Bool.not_eq_true',
    Bool.and_eq_false_iff, decide_eq_false_iff_not]
  refine and_congr_right fun _ => forall₂_congr fun d _ => ?_
  cases d.status.live <;> cases sameWorkload d c <;> simp

theorem exists_newest (hc : c ∈ rows) (hlive : c.status.live = true) :
    ∃ n ∈ rows, isNewest rows n = true ∧ sameWorkload n c = true ∧ age c ≤ age n := by
  have hself : sameWorkload c c = true := by simp [sameWorkload]
  obtain ⟨n, hn, hmax⟩ := (rows.filter fun d => d.status.live && sameWorkload d c).toFinset
    |>.exists_max_image age ⟨c, by simp [hc, hlive, hself]⟩
  simp only [mem_toFinset, mem_filter, Bool.and_eq_true] at hn hmax
  obtain ⟨hn, hnlive, hsame⟩ := hn
  refine ⟨n, hn, isNewest_iff.mpr ⟨hnlive, fun d hd hdlive hdn => ?_⟩, hsame,
    hmax c ⟨hc, hlive, hself⟩⟩
  exact not_lt.mpr (hmax d ⟨hd, hdlive, sameWorkload_trans hdn hsame⟩)

theorem newestPerWorkload_markDeleted (hids : ∀ id ∈ ids, id ∉ newestPerWorkload rows) :
    newestPerWorkload (markDeleted ids rows) = newestPerWorkload rows := by
  have hkept : ∀ {n}, n ∈ rows → isNewest rows n = true → n.id ∉ ids := fun hn hnewest hmem =>
    hids _ hmem (mem_map.mpr ⟨_, mem_filter.mpr ⟨hn, hnewest⟩, rfl⟩)
  have hsame : ∀ c ∈ rows, isNewest (markDeleted ids rows) (mark ids c) = isNewest rows c := by
    intro c hc
    rw [Bool.eq_iff_iff, isNewest_iff, isNewest_iff]
    simp only [markDeleted, forall_mem_map, mark_live, mark_sameWorkload, mark_age,
      Bool.and_eq_true, decide_eq_true_eq]
    constructor
    · rintro ⟨⟨hlive, hout⟩, hmax⟩
      refine ⟨hlive, fun d hd hdlive hdc hnewer => ?_⟩
      -- The newest checkpoint of the workload is not marked, and it is at least as new as `d`.
      obtain ⟨n, hn, hnewest, hnd, hage⟩ := exists_newest hd hdlive
      exact hmax n hn ⟨(isNewest_iff.mp hnewest).1, hkept hn hnewest⟩ (sameWorkload_trans hnd hdc)
        (hnewer.trans_le hage)
    · rintro ⟨hlive, hmax⟩
      exact ⟨⟨hlive, hkept hc (isNewest_iff.mpr ⟨hlive, hmax⟩)⟩,
        fun d hd hd' hdc => hmax d hd hd'.1 hdc⟩
  have hfilter : rows.filter (isNewest (markDeleted ids rows) ∘ mark ids) =
      rows.filter (isNewest rows) := filter_congr hsame
  simp only [newestPerWorkload]
  rw [show markDeleted ids rows = rows.map (mark ids) from rfl, filter_map] at *
  rw [hfilter]
  simp [Function.comp_def]

def Ancestor (rows : List (Checkpoint Id)) (a b : Id) : Prop :=
  Relation.TransGen (fun x y => y ∈ parentIDs rows x) b a

def Guarded (rows : List (Checkpoint Id)) (id : Id) : Prop :=
  ∃ newest ∈ newestPerWorkload rows, id = newest ∨ Ancestor rows id newest

theorem mem_protectedIDs {id : Id} : id ∈ protectedIDs rows ↔ Guarded rows id := by
  have htable : ∀ x, parentIDs rows x ⊆ rows.map (·.id) := by
    intro x y hy
    obtain ⟨c, _, hy⟩ := mem_flatMap.mp hy
    obtain ⟨d, hd, rfl⟩ := mem_map.mp hy
    exact mem_map_of_mem (mem_of_mem_filter hd)
  have hroots : newestPerWorkload rows ⊆ rows.map (·.id) :=
    (filter_sublist.map _).subset
  have h := mem_recursiveUnion htable hroots (x := id)
  rw [length_map] at h
  rw [protectedIDs, h]
  refine exists_congr fun newest => and_congr_right fun _ => ?_
  rw [Relation.reflTransGen_iff_eq_or_transGen]
  exact Iff.rfl

theorem Guarded.ancestor {a b : Id} (h : Guarded rows b) (ha : Ancestor rows a b) :
    Guarded rows a := by
  obtain ⟨newest, hnewest, rfl | hb⟩ := h
  · exact ⟨b, hnewest, .inr ha⟩
  · exact ⟨newest, hnewest, .inr (hb.trans ha)⟩

theorem protectedIDs_markDeleted (hids : ∀ id ∈ ids, id ∉ protectedIDs rows) :
    protectedIDs (markDeleted ids rows) = protectedIDs rows := by
  have hnewest : ∀ id ∈ ids, id ∉ newestPerWorkload rows := fun id hid hmem =>
    hids id hid (mem_protectedIDs.mpr ⟨id, hmem, .inl rfl⟩)
  rw [protectedIDs, parentIDs_markDeleted, newestPerWorkload_markDeleted hnewest,
    length_markDeleted, protectedIDs]

end Shiftgate.Housekeeping
