import Mathlib.Data.List.Dedup
import Mathlib.Logic.Relation
import Mathlib.Tactic

/-! The recursive query: `WITH RECURSIVE r AS (roots UNION next)`. Each round joins the rows found
by the round before and keeps those that are new. Over a finite table it ends, with what the roots
reach. -/

namespace Shiftgate.Library

open List

variable {α : Type} {next : α → List α}

def rounds [DecidableEq α] (next : α → List α) : Nat → List α → List α → List α
  | 0, result, _ => result
  | fuel + 1, result, working =>
    let fresh := (working.flatMap next).dedup.filter (· ∉ result)
    rounds next fuel (result ++ fresh) fresh

def recursiveUnion [DecidableEq α] (next : α → List α) (size : Nat) (roots : List α) : List α :=
  rounds next size roots.dedup roots.dedup

def ReachedFrom (next : α → List α) (roots : List α) (x : α) : Prop :=
  ∃ root ∈ roots, Relation.ReflTransGen (fun a b => b ∈ next a) root x

variable {roots result working : List α} {fuel : Nat}

theorem ReachedFrom.tail {a b : α} (h : ReachedFrom next roots a) (hb : b ∈ next a) :
    ReachedFrom next roots b := by
  obtain ⟨root, hroot, hpath⟩ := h
  exact ⟨root, hroot, hpath.tail hb⟩

theorem rounds_sound [DecidableEq α] (hresult : ∀ a ∈ result, ReachedFrom next roots a)
    (hworking : ∀ a ∈ working, ReachedFrom next roots a) :
    ∀ a ∈ rounds next fuel result working, ReachedFrom next roots a := by
  induction fuel generalizing result working with
  | zero => exact hresult
  | succ fuel ih =>
    have hfresh : ∀ a ∈ (working.flatMap next).dedup.filter (· ∉ result),
        ReachedFrom next roots a := by
      intro a ha
      obtain ⟨b, hb, hab⟩ := mem_flatMap.mp (mem_dedup.mp (mem_of_mem_filter ha))
      exact (hworking b hb).tail hab
    refine ih (fun a ha => ?_) hfresh
    rcases mem_append.mp ha with ha | ha
    · exact hresult a ha
    · exact hfresh a ha

/-- Only the rows of the last round can lead outside the result, and the rounds left suffice for the
rows not in it. -/
structure Frontier (next : α → List α) (table : List α) (fuel : Nat) (result working : List α) :
    Prop where
  distinct : result.Nodup
  inside : result ⊆ table
  closed : ∀ a ∈ result, a ∉ working → next a ⊆ result
  enough : working = [] ∨ table.length ≤ result.length + fuel

variable {table : List α}

theorem Frontier.round [DecidableEq α] (htable : ∀ a, next a ⊆ table)
    (h : Frontier next table (fuel + 1) result working) :
    Frontier next table fuel
      (result ++ (working.flatMap next).dedup.filter (· ∉ result))
      ((working.flatMap next).dedup.filter (· ∉ result)) := by
  set fresh := (working.flatMap next).dedup.filter (· ∉ result) with hfresh
  have hnew : ∀ a ∈ fresh, a ∉ result := fun a ha => by simpa using (mem_filter.mp ha).2
  have hreach : ∀ b ∈ working, next b ⊆ result ++ fresh := by
    intro b hb a ha
    by_cases hmem : a ∈ result
    · exact mem_append_left _ hmem
    · refine mem_append_right _ (mem_filter.mpr ⟨?_, by simpa using hmem⟩)
      exact mem_dedup.mpr (mem_flatMap.mpr ⟨b, hb, ha⟩)
  refine ⟨?_, ?_, ?_, ?_⟩
  · refine nodup_append'.mpr ⟨h.distinct, (nodup_dedup _).filter _, ?_⟩
    exact fun a ha hfresh => hnew a hfresh ha
  · intro a ha
    rcases mem_append.mp ha with ha | ha
    · exact h.inside ha
    · obtain ⟨b, _, hab⟩ := mem_flatMap.mp (mem_dedup.mp (mem_of_mem_filter ha))
      exact htable b hab
  · intro a ha hout
    have ha := (mem_append.mp ha).resolve_right hout
    by_cases hwork : a ∈ working
    · exact hreach a hwork
    · exact fun b hb => mem_append_left _ (h.closed a ha hwork hb)
  · by_cases hempty : fresh = []
    · exact .inl hempty
    · have hpos := length_pos_of_ne_nil hempty
      rcases h.enough with hwork | hlen
      · exact absurd (by simp [hfresh, hwork]) hempty
      · exact .inr (by rw [length_append]; omega)

theorem Frontier.finish (htable : ∀ a, next a ⊆ table) (h : Frontier next table 0 result working) :
    ∀ a ∈ result, next a ⊆ result := by
  intro a ha
  rcases h.enough with hwork | hlen
  · exact h.closed a ha (by simp [hwork])
  · have hperm := (h.distinct.subperm h.inside).perm_of_length_le (by simpa using hlen)
    exact fun b hb => hperm.mem_iff.mpr (htable a hb)

theorem rounds_complete [DecidableEq α] (htable : ∀ a, next a ⊆ table)
    (h : Frontier next table fuel result working) :
    result ⊆ rounds next fuel result working ∧
      ∀ a ∈ rounds next fuel result working, next a ⊆ rounds next fuel result working := by
  induction fuel generalizing result working with
  | zero => exact ⟨fun _ ha => ha, h.finish htable⟩
  | succ fuel ih =>
    obtain ⟨hsub, hclosed⟩ := ih (h.round htable)
    exact ⟨fun a ha => hsub (mem_append_left _ ha), hclosed⟩

/-- The query finds exactly what the roots reach. -/
theorem mem_recursiveUnion [DecidableEq α] (htable : ∀ a, next a ⊆ table) (hroots : roots ⊆ table)
    {x : α} : x ∈ recursiveUnion next table.length roots ↔ ReachedFrom next roots x := by
  constructor
  · have hroot : ∀ a ∈ roots.dedup, ReachedFrom next roots a := fun a ha =>
      ⟨a, mem_dedup.mp ha, .refl⟩
    exact rounds_sound hroot hroot x
  · rintro ⟨root, hroot, hpath⟩
    have hstart : Frontier next table table.length roots.dedup roots.dedup :=
      ⟨nodup_dedup roots, fun a ha => hroots (mem_dedup.mp ha),
        fun a ha hout => absurd ha hout, .inr (Nat.le_add_left _ _)⟩
    obtain ⟨hsub, hclosed⟩ := rounds_complete htable hstart
    induction hpath with
    | refl => exact hsub (mem_dedup.mpr hroot)
    | tail _ hstep ih => exact hclosed _ ih hstep

end Shiftgate.Library
