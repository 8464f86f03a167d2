import Shiftgate.Objectstore.Listing

/-! The metering of hosted storage, `internal/controlplane/storage.go`. The listing is asked for an
organization's prefix without the slash that ends it, so it also counts the objects of every
organization whose identifier begins with this one's. -/

namespace Shiftgate.Storage

open Objectstore List

inductive StorageError where
  | invalidOrganization
  | list (e : ListError)
  deriving DecidableEq

def safeCharacter (c : Char) : Bool :=
  ('a' ≤ c && c ≤ 'z') || ('A' ≤ c && c ≤ 'Z') || ('0' ≤ c && c ≤ '9') || c = '_' || c = '-'

def storagePrefix (organizationID : String) : Except StorageError String :=
  if organizationID = "" ∨ organizationID.utf8ByteSize > 128 then .error .invalidOrganization
  else if organizationID.toList.all safeCharacter then .ok ("org/" ++ organizationID)
  else .error .invalidOrganization

/-- The lister has no prefix of its own. -/
def reconcileOrganization (bucket : Listing) (answers : Nat → Option Nat)
    (organizationID : String) : Option (Except StorageError Nat) :=
  match storagePrefix organizationID with
  | .error e => some (.error e)
  | .ok start =>
    (listPrefix bucket "" answers (fun total o => .ok (total + o.size)) (start ++ "/") 0).map
      (·.mapError .list)

abbrev Day := { text : String // text.toList.length = 10 }

structure UsageRecord where
  organizationID : String
  quantity : Nat

structure Ledger where
  used : String → Option Nat
  usage : String → Option UsageRecord

structure Recount where
  bucket : Listing
  answers : Nat → Option Nat
  updates : Bool
  upserts : Bool
  day : Day

def usageID (organizationID : String) (day : Day) : String :=
  organizationID ++ "-checkpoint_storage-" ++ day.1

def Ledger.updateStorageUsage (l : Ledger) (organizationID : String) (bytes : Nat) :
    Option Ledger :=
  match l.used organizationID with
  | none => none
  | some _ => some { l with used := Function.update l.used organizationID (some bytes) }

def Ledger.upsertDailyUsage (l : Ledger) (organizationID : String) (day : Day) (bytes : Nat) :
    Ledger :=
  let id := usageID organizationID day
  let record : UsageRecord :=
    match l.usage id with
    | some old => { old with quantity := bytes }
    | none => ⟨organizationID, bytes⟩
  { l with usage := Function.update l.usage id (some record) }

def reconcileOne (e : Recount) (l : Ledger) (organizationID : String) : Ledger :=
  match reconcileOrganization e.bucket e.answers organizationID with
  | some (.ok bytes) =>
    if e.updates then
      match l.updateStorageUsage organizationID bytes with
      | none => l
      | some l => if e.upserts then l.upsertDailyUsage organizationID e.day bytes else l
    else l
  | _ => l

def reconcileStorageUsage (e : String → Recount) (organizationIDs : List String) (l : Ledger) :
    Ledger :=
  organizationIDs.foldl (fun l organizationID => reconcileOne (e organizationID) l organizationID) l

def own (organizationID : String) (o : ListedObject) : Bool :=
  hasPrefix o.key ("org/" ++ organizationID ++ "/")

/-- The key begins like the organization's prefix, but does not lie under it. -/
def strays (organizationID : String) (o : ListedObject) : Bool :=
  hasPrefix o.key ("org/" ++ organizationID) && !own organizationID o

def total (p : ListedObject → Bool) (b : Listing) : Nat :=
  ((b.objects.filter p).map (·.size)).sum

def footprint (organizationID : String) (b : Listing) : Nat := total (own organizationID) b

def counted (organizationID : String) (b : Listing) : Nat :=
  total (fun o => hasPrefix o.key ("org/" ++ organizationID)) b

variable {organizationID other : String} {b : Listing}

variable {start : String} {o : ListedObject} {organizationIDs : List String}

theorem storagePrefix_ok (h : storagePrefix organizationID = .ok start) :
    start = "org/" ++ organizationID ∧ organizationID ≠ "" ∧
      ∀ c ∈ organizationID.toList, c ≠ '/' := by
  simp only [storagePrefix] at h
  split at h
  · cases h
  · split at h
    · rename_i hlength hall
      cases h
      refine ⟨rfl, fun hempty => hlength (.inl hempty), ?_⟩
      rintro c hc rfl
      exact absurd (all_eq_true.mp hall '/' hc) (by decide)
    · cases h

theorem fullPrefix_storagePrefix (h : storagePrefix organizationID = .ok start) :
    fullPrefix "" (start ++ "/") = "org/" ++ organizationID := by
  obtain ⟨rfl, hempty, hslash⟩ := storagePrefix_ok h
  have hne : "org/" ++ organizationID ++ "/" ≠ "" := by
    intro heq
    have := congrArg String.toList heq
    simp at this
  have hletters : organizationID.toList ≠ [] := fun h => hempty (String.toList_injective h)
  rw [fullPrefix, if_neg hne, if_pos rfl, String.empty_append]
  refine trimSlashes_append ?_ ?_
  · intro c hc
    have hfirst : ("org/" ++ organizationID).toList.head? = some 'o' := by simp
    rw [hfirst] at hc
    cases hc
    decide
  · intro c hc
    rw [String.toList_append, getLast?_append_of_ne_nil _ hletters] at hc
    exact hslash c (mem_of_getLast? hc)

theorem foldlM_total (xs : List ListedObject) (seen : Nat) :
    xs.foldlM (fun total o => (.ok (total + (externalListed "" o).size) : Except ListError Nat))
      seen = .ok (seen + (xs.map (·.size)).sum) := by
  induction xs generalizing seen with
  | nil => rfl
  | cons o rest ih =>
    have hsame : externalListed "" o = o := by simp [externalListed]
    rw [foldlM_cons, hsame]
    show List.foldlM _ (seen + o.size) rest = _
    rw [ih, map_cons, sum_cons, Nat.add_assoc]

theorem reconcileOrganization_eq (h : storagePrefix organizationID = .ok start) (b : Listing)
    (answers : Nat → Option Nat) :
    (reconcileOrganization b answers organizationID = some (.error (.list .remote)) ∧
      ∃ j, answers j = none) ∨
    reconcileOrganization b answers organizationID = some (.ok (counted organizationID b)) := by
  simp only [reconcileOrganization, h]
  rcases listPrefix_walk b "" answers (fun total o => .ok (total + o.size)) (start ++ "/") 0 with
    ⟨hlost, hfailed⟩ | hwalk
  · exact .inl ⟨by rw [hlost]; rfl, hfailed⟩
  · right
    rw [hwalk, fullPrefix_storagePrefix h, foldlM_total, Nat.zero_add]
    rfl

theorem counted_eq (organizationID : String) (b : Listing) :
    counted organizationID b = footprint organizationID b + total (strays organizationID) b := by
  have hown : ∀ o, own organizationID o = true →
      hasPrefix o.key ("org/" ++ organizationID) = true := by
    intro o ho
    simp only [own, hasPrefix, isPrefixOf_iff_prefix] at ho ⊢
    rw [String.toList_append] at ho
    exact (prefix_append ..).trans ho
  simp only [counted, footprint, total]
  induction b.objects with
  | nil => rfl
  | cons o rest ih =>
    simp only [filter_cons]
    cases ho : own organizationID o with
    | true =>
      simp only [strays, ho, hown o ho, if_true, map_cons, sum_cons, Bool.not_true,
        Bool.and_false, Bool.false_eq_true, if_false]
      rw [ih, Nat.add_assoc]
    | false =>
      cases hp : hasPrefix o.key ("org/" ++ organizationID) with
      | true =>
        simp only [strays, ho, hp, if_true, map_cons, sum_cons, Bool.not_false,
          Bool.and_self, Bool.false_eq_true, if_false]
        rw [ih, Nat.add_left_comm]
      | false =>
        simp only [strays, ho, hp, Bool.false_and, Bool.false_eq_true, if_false]
        exact ih

theorem counted_eq_footprint_iff (organizationID : String) (b : Listing) :
    counted organizationID b = footprint organizationID b ↔
      ∀ o ∈ b.objects, strays organizationID o = true → o.size = 0 := by
  rw [counted_eq, Nat.add_eq_left, total, sum_eq_zero_iff]
  simp only [mem_map, mem_filter]
  constructor
  · exact fun h o ho hs => h o.size ⟨o, ⟨ho, hs⟩, rfl⟩
  · rintro h _ ⟨o, ⟨ho, hs⟩, rfl⟩
    exact h o ho hs

theorem counted_perm {b' : Listing} (h : b'.objects.Perm (o :: b.objects)) :
    counted organizationID b' = counted organizationID b +
      if hasPrefix o.key ("org/" ++ organizationID) then o.size else 0 := by
  have hperm := ((h.filter fun o => hasPrefix o.key ("org/" ++ organizationID)).map
    (·.size)).sum_eq
  simp only [counted, total]
  rw [hperm, filter_cons]
  split
  · rw [map_cons, sum_cons, Nat.add_comm]
  · rfl

theorem hasPrefix_other (h : storagePrefix organizationID = .ok start) (ho : own other o = true) :
    hasPrefix o.key ("org/" ++ organizationID) = true ↔
      organizationID.toList <+: other.toList := by
  obtain ⟨-, -, hslash⟩ := storagePrefix_ok h
  simp only [own, hasPrefix, isPrefixOf_iff_prefix, String.toList_append] at ho ⊢
  obtain ⟨rest, hrest⟩ := ho
  rw [← hrest, append_assoc, append_assoc, prefix_append_right_inj]
  constructor
  · intro hbegins
    rcases prefix_or_prefix_of_prefix hbegins (prefix_append other.toList _) with h' | h'
    · exact h'
    · -- A longer identifier would hold the slash.
      obtain ⟨more, hmore⟩ := h'
      cases more with
      | nil => rw [← hmore, append_nil]
      | cons c more =>
        rw [← hmore, prefix_append_right_inj] at hbegins
        have hc : c = '/' := by
          obtain ⟨tail, htail⟩ := hbegins
          simp at htail
          exact htail.1
        exact absurd hc (hslash c (by simp [← hmore]))
  · exact fun hbegins => hbegins.trans (prefix_append ..)

theorem usageID_injective {day day' : Day} (h : usageID organizationID day = usageID other day') :
    organizationID = other := by
  have hlists := congrArg String.toList h
  simp only [usageID, String.toList_append] at hlists
  obtain ⟨hfront, -⟩ := append_inj' hlists (by rw [day.2, day'.2])
  exact String.toList_injective (append_cancel_right hfront)

theorem reconcileOne_other (e : Recount) (l : Ledger) (day : Day) (hne : other ≠ organizationID) :
    (reconcileOne e l other).used organizationID = l.used organizationID ∧
      (reconcileOne e l other).usage (usageID organizationID day) =
        l.usage (usageID organizationID day) := by
  have hid : usageID organizationID day ≠ usageID other e.day :=
    fun h => hne (usageID_injective h).symm
  unfold reconcileOne Ledger.updateStorageUsage Ledger.upsertDailyUsage
  split
  · split
    · cases l.used other with
      | none => exact ⟨rfl, rfl⟩
      | some _ =>
        dsimp only
        split
        · exact ⟨Function.update_of_ne hne.symm .., Function.update_of_ne hid ..⟩
        · exact ⟨Function.update_of_ne hne.symm .., rfl⟩
    · exact ⟨rfl, rfl⟩
  · exact ⟨rfl, rfl⟩

theorem foldl_other (e : String → Recount) (l : Ledger) (day : Day)
    (hmem : organizationID ∉ organizationIDs) :
    (reconcileStorageUsage e organizationIDs l).used organizationID = l.used organizationID ∧
      (reconcileStorageUsage e organizationIDs l).usage (usageID organizationID day) =
        l.usage (usageID organizationID day) := by
  induction organizationIDs generalizing l with
  | nil => exact ⟨rfl, rfl⟩
  | cons first rest ih =>
    rw [mem_cons, not_or] at hmem
    obtain ⟨hused, husage⟩ := reconcileOne_other (e first) l day (Ne.symm hmem.1)
    obtain ⟨hused', husage'⟩ := ih (reconcileOne (e first) l first) hmem.2
    exact ⟨hused'.trans hused, husage'.trans husage⟩

theorem reconcileStorageUsage_own (e : String → Recount) (l : Ledger)
    (hnodup : organizationIDs.Nodup) (hmem : organizationID ∈ organizationIDs) :
    ∃ l', l'.used organizationID = l.used organizationID ∧
      (reconcileStorageUsage e organizationIDs l).used organizationID =
        (reconcileOne (e organizationID) l' organizationID).used organizationID ∧
      (reconcileStorageUsage e organizationIDs l).usage
          (usageID organizationID (e organizationID).day) =
        (reconcileOne (e organizationID) l' organizationID).usage
          (usageID organizationID (e organizationID).day) := by
  obtain ⟨before, after, rfl⟩ := append_of_mem hmem
  rw [nodup_middle, nodup_cons, mem_append, not_or] at hnodup
  obtain ⟨⟨hbefore, hafter⟩, -⟩ := hnodup
  refine ⟨reconcileStorageUsage e before l, (foldl_other e l (e organizationID).day hbefore).1, ?_⟩
  have hrun : reconcileStorageUsage e (before ++ organizationID :: after) l =
      reconcileStorageUsage e after
        (reconcileOne (e organizationID) (reconcileStorageUsage e before l) organizationID) := by
    simp [reconcileStorageUsage]
  rw [hrun]
  exact foldl_other e _ (e organizationID).day hafter

theorem reconcileOne_own (h : storagePrefix organizationID = .ok start) {e : Recount} {l : Ledger}
    (hanswers : ∀ i, (e.answers i).isSome) (hupdates : e.updates = true)
    (hrow : (l.used organizationID).isSome) :
    (reconcileOne e l organizationID).used organizationID =
        some (counted organizationID e.bucket) ∧
      (e.upserts = true →
        ((reconcileOne e l organizationID).usage (usageID organizationID e.day)).map
          (·.quantity) = some (counted organizationID e.bucket)) := by
  obtain ⟨old, hold⟩ := Option.isSome_iff_exists.mp hrow
  have hcount : reconcileOrganization e.bucket e.answers organizationID =
      some (.ok (counted organizationID e.bucket)) := by
    rcases reconcileOrganization_eq h e.bucket e.answers with ⟨-, j, hj⟩ | hcount
    · have := hanswers j
      simp [hj] at this
    · exact hcount
  simp only [reconcileOne, hcount, hupdates, if_true, Ledger.updateStorageUsage, hold]
  cases hupserts : e.upserts with
  | false => exact ⟨Function.update_self .., nofun⟩
  | true =>
    simp only [if_true, Ledger.upsertDailyUsage, Function.update_self, Option.map_some]
    cases l.usage (usageID organizationID e.day) <;> exact ⟨trivial, fun _ => rfl⟩

theorem reconcileStorageUsage_counted (h : storagePrefix organizationID = .ok start)
    (e : String → Recount) (l : Ledger) (hnodup : organizationIDs.Nodup)
    (hmem : organizationID ∈ organizationIDs)
    (hanswers : ∀ i, ((e organizationID).answers i).isSome)
    (hupdates : (e organizationID).updates = true) (hrow : (l.used organizationID).isSome) :
    (reconcileStorageUsage e organizationIDs l).used organizationID =
        some (counted organizationID (e organizationID).bucket) ∧
      ((e organizationID).upserts = true →
        ((reconcileStorageUsage e organizationIDs l).usage
          (usageID organizationID (e organizationID).day)).map (·.quantity) =
        some (counted organizationID (e organizationID).bucket)) := by
  obtain ⟨l', hsame, hused, husage⟩ := reconcileStorageUsage_own e l hnodup hmem
  rw [hused, husage]
  exact reconcileOne_own h hanswers hupdates (hsame ▸ hrow)

/-- The total recorded for an organization is the sum of its own objects exactly when every object
whose key begins like its prefix without lying under it is empty; the usage record agrees; and an
object more under another organization's prefix leaves it unchanged exactly when the object is empty
or the other identifier does not begin with this one. -/
theorem metered_iff {start : String} (h : storagePrefix organizationID = .ok start)
    (e : String → Recount) (l : Ledger) {organizationIDs : List String}
    (hnodup : organizationIDs.Nodup) (hmem : organizationID ∈ organizationIDs)
    (hanswers : ∀ i, ((e organizationID).answers i).isSome)
    (hupdates : (e organizationID).updates = true) (hrow : (l.used organizationID).isSome) :
    ((reconcileStorageUsage e organizationIDs l).used organizationID =
        some (footprint organizationID (e organizationID).bucket) ↔
      ∀ o ∈ (e organizationID).bucket.objects, strays organizationID o = true → o.size = 0) ∧
    ((e organizationID).upserts = true →
      ((reconcileStorageUsage e organizationIDs l).usage
        (usageID organizationID (e organizationID).day)).map (·.quantity) =
      (reconcileStorageUsage e organizationIDs l).used organizationID) ∧
    ∀ other o (b : Listing), own other o = true →
      b.objects.Perm (o :: (e organizationID).bucket.objects) →
        ((reconcileStorageUsage
            (Function.update e organizationID { e organizationID with bucket := b })
            organizationIDs l).used organizationID =
          (reconcileStorageUsage e organizationIDs l).used organizationID ↔
        o.size = 0 ∨ ¬ organizationID.toList <+: other.toList) := by
  obtain ⟨hused, husage⟩ :=
    reconcileStorageUsage_counted h e l hnodup hmem hanswers hupdates hrow
  refine ⟨?_, fun hupserts => ?_, ?_⟩
  · rw [hused, Option.some.injEq]
    exact counted_eq_footprint_iff organizationID _
  · rw [husage hupserts, hused]
  · intro other o b hown hperm
    have hother := (reconcileStorageUsage_counted h
      (Function.update e organizationID { e organizationID with bucket := b }) l hnodup hmem
      (by simpa using hanswers) (by simpa using hupdates) hrow).1
    rw [hother, hused, Option.some.injEq, Function.update_self, counted_perm hperm, Nat.add_eq_left]
    have hbegins := hasPrefix_other h hown
    by_cases hp : hasPrefix o.key ("org/" ++ organizationID) = true
    · rw [if_pos hp]
      simp [hbegins.mp hp]
    · rw [if_neg hp]
      have hnot : ¬ organizationID.toList <+: other.toList := fun h' => hp (hbegins.mpr h')
      simp [hnot]

namespace Sample

def bucket : Listing where
  objects := [⟨"org/a/x", 3⟩, ⟨"org/ab/y", 5⟩, ⟨"org/b/z", 4⟩]
  sorted := by decide
  named := by decide
  bounded := by decide

def smaller : Listing where
  objects := [⟨"org/a/x", 3⟩, ⟨"org/b/z", 4⟩]
  sorted := by decide
  named := by decide
  bounded := by decide

def day : Day := ⟨"2026-01-01", by decide⟩

def recount (b : Listing) : String → Recount := fun _ => ⟨b, fun _ => some 1, true, true, day⟩

def ledger : Ledger := ⟨fun _ => some 0, fun _ => none⟩

end Sample

theorem metered_iff_sample :
    (reconcileStorageUsage (Sample.recount Sample.bucket) ["a", "ab", "b"] Sample.ledger).used "b" =
      some (footprint "b" Sample.bucket) := by
  have hvalid : storagePrefix "b" = .ok "org/b" := by decide
  refine (metered_iff hvalid (Sample.recount Sample.bucket) Sample.ledger (by decide) (by decide)
    (fun _ => rfl) rfl rfl).1.mpr ?_
  decide

/-- Organization `a` is charged for an object of organization `ab`. -/
theorem not_metered :
    own "a" ⟨"org/ab/y", 5⟩ = false ∧ own "ab" ⟨"org/ab/y", 5⟩ = true ∧
    footprint "a" Sample.bucket = 3 ∧
    (reconcileStorageUsage (Sample.recount Sample.bucket) ["a", "ab", "b"] Sample.ledger).used "a" =
      some 8 ∧
    (reconcileStorageUsage (Sample.recount Sample.smaller) ["a", "ab", "b"] Sample.ledger).used
      "a" = some 3 := by
  decide

end Shiftgate.Storage
