import Mathlib.Algebra.BigOperators.Group.Finset.Basic
import Mathlib.Algebra.Order.BigOperators.Group.Finset
import Mathlib.Combinatorics.Hall.Basic
import Mathlib.Data.List.FinRange

/-! Assigning demands to distinct items of a pool. A demand names a class; a narrow one takes only
items of that class, any other takes every item of the class's group. Counting decides whether all
can be met at once. -/

namespace Shiftgate.Library

variable {α β K V : Type}

/-- Every demand has an item of its own that it accepts. -/
def Assignable (accepts : α → β → Prop) (demands : List α) (pool : List β) : Prop :=
  ∃ f : Fin demands.length → Fin pool.length, Function.Injective f ∧
    ∀ i, accepts (demands.get i) (pool.get (f i))

theorem card_filter_get (l : List α) (p : α → Prop) [DecidablePred p] :
    (Finset.univ.filter fun i : Fin l.length => p (l.get i)).card = l.countP (p ·) := by
  have hlist : (List.finRange l.length).map l.get = l := List.map_get_finRange l
  conv_rhs => rw [← hlist, List.countP_map]
  rw [List.countP_eq_length_filter]
  rfl

section Classes

variable [DecidableEq K] [DecidableEq V] {want : α → K} {narrow : α → Prop} [DecidablePred narrow]
  {cls : β → K} {group : K → V}

def AcceptsClass (want : α → K) (narrow : α → Prop) (cls : β → K) (group : K → V) (a : α) (b : β) :
    Prop :=
  group (cls b) = group (want a) ∧ (narrow a → cls b = want a)

instance (a : α) (b : β) : Decidable (AcceptsClass want narrow cls group a b) :=
  inferInstanceAs (Decidable (_ ∧ (_ → _)))

variable [Fintype α] [Fintype β]

/-- Demands that are all narrow, class by class. -/
theorem card_le_of_narrow (hclass : ∀ k, (Finset.univ.filter fun a => narrow a ∧ want a = k).card ≤
      (Finset.univ.filter fun b => cls b = k).card)
    (A : Finset α) (hnarrow : ∀ a ∈ A, narrow a) (B : Finset β)
    (hB : ∀ b, (∃ a ∈ A, cls b = want a) → b ∈ B) : A.card ≤ B.card := by
  have hsub : (Finset.univ.filter fun b => cls b ∈ A.image want) ⊆ B := by
    intro b hb
    obtain ⟨a, ha, hwant⟩ := Finset.mem_image.mp (Finset.mem_filter.mp hb).2
    exact hB b ⟨a, ha, hwant.symm⟩
  refine le_trans ?_ (Finset.card_le_card hsub)
  rw [Finset.card_eq_sum_card_fiberwise (f := want) (t := A.image want)
      (fun a ha => Finset.mem_image_of_mem want ha),
    Finset.card_eq_sum_card_fiberwise (s := Finset.univ.filter fun b => cls b ∈ A.image want)
      (f := cls) (t := A.image want) (fun b hb => (Finset.mem_filter.mp hb).2)]
  refine Finset.sum_le_sum fun k hk => ?_
  calc (A.filter fun a => want a = k).card
      ≤ (Finset.univ.filter fun a => narrow a ∧ want a = k).card := by
        refine Finset.card_le_card fun a ha => ?_
        obtain ⟨haA, hwant⟩ := Finset.mem_filter.mp ha
        exact Finset.mem_filter.mpr ⟨Finset.mem_univ a, hnarrow a haA, hwant⟩
    _ ≤ (Finset.univ.filter fun b => cls b = k).card := hclass k
    _ ≤ _ := by
        refine Finset.card_le_card fun b hb => ?_
        have hcls := (Finset.mem_filter.mp hb).2
        exact Finset.mem_filter.mpr
          ⟨Finset.mem_filter.mpr ⟨Finset.mem_univ b, hcls ▸ hk⟩, hcls⟩

/-- Demands within their groups, and the narrow ones within their classes, can all be met. -/
theorem exists_injective_of_counts
    (hgroup : ∀ v, (Finset.univ.filter fun a => group (want a) = v).card ≤
      (Finset.univ.filter fun b => group (cls b) = v).card)
    (hclass : ∀ k, (Finset.univ.filter fun a => narrow a ∧ want a = k).card ≤
      (Finset.univ.filter fun b => cls b = k).card) :
    ∃ f : α → β, Function.Injective f ∧ ∀ a, AcceptsClass want narrow cls group a (f a) := by
  refine (Fintype.all_card_le_filter_rel_iff_exists_injective _).mp fun A => ?_
  set B := Finset.univ.filter fun b => ∃ a ∈ A, AcceptsClass want narrow cls group a b with hBdef
  have hmem : ∀ {a b}, a ∈ A → AcceptsClass want narrow cls group a b → b ∈ B := fun ha h =>
    Finset.mem_filter.mpr ⟨Finset.mem_univ _, _, ha, h⟩
  -- Demands and items are compared group by group.
  rw [Finset.card_eq_sum_card_fiberwise (f := fun a => group (want a))
      (t := A.image fun a => group (want a)) (fun a ha => Finset.mem_image_of_mem _ ha),
    Finset.card_eq_sum_card_fiberwise (s := B) (f := fun b => group (cls b))
      (t := A.image fun a => group (want a)) (fun b hb => by
        obtain ⟨a, ha, haccepts⟩ := (Finset.mem_filter.mp hb).2
        exact Finset.mem_image.mpr ⟨a, ha, haccepts.1.symm⟩)]
  refine Finset.sum_le_sum fun v _ => ?_
  by_cases hwide : ∃ a ∈ A, group (want a) = v ∧ ¬ narrow a
  · -- A demand for the whole group reaches every item of it.
    obtain ⟨a, ha, hv, hnot⟩ := hwide
    refine le_trans (Finset.card_le_card ?_) (le_trans (hgroup v) (Finset.card_le_card ?_))
    · exact fun x hx =>
        Finset.mem_filter.mpr ⟨Finset.mem_univ x, (Finset.mem_filter.mp hx).2⟩
    · intro b hb
      have hb := (Finset.mem_filter.mp hb).2
      exact Finset.mem_filter.mpr ⟨hmem ha ⟨hb.trans hv.symm, fun h => absurd h hnot⟩, hb⟩
  · refine card_le_of_narrow hclass _ (fun a ha => ?_) _ fun b hb => ?_
    · obtain ⟨haA, hv⟩ := Finset.mem_filter.mp ha
      by_contra hnot
      exact hwide ⟨a, haA, hv, hnot⟩
    · obtain ⟨a, ha, hcls⟩ := hb
      obtain ⟨haA, hv⟩ := Finset.mem_filter.mp ha
      exact Finset.mem_filter.mpr
        ⟨hmem haA ⟨by rw [hcls], fun _ => hcls⟩, by rw [hcls, hv]⟩

end Classes

theorem assignable_of_counts [DecidableEq K] [DecidableEq V] {want : α → K} {narrow : α → Prop}
    [DecidablePred narrow] {cls : β → K} {group : K → V} {demands : List α} {pool : List β}
    (hgroup : ∀ v, demands.countP (fun a => group (want a) = v) ≤
      pool.countP (fun b => group (cls b) = v))
    (hclass : ∀ k, demands.countP (fun a => narrow a ∧ want a = k) ≤
      pool.countP (fun b => cls b = k)) :
    Assignable (AcceptsClass want narrow cls group) demands pool := by
  have hgroups : ∀ v, (Finset.univ.filter fun i : Fin demands.length =>
      group (want (demands.get i)) = v).card ≤
      (Finset.univ.filter fun j : Fin pool.length => group (cls (pool.get j)) = v).card := by
    intro v
    rw [card_filter_get demands fun a => group (want a) = v,
      card_filter_get pool fun b => group (cls b) = v]
    exact hgroup v
  have hclasses : ∀ k, (Finset.univ.filter fun i : Fin demands.length =>
      narrow (demands.get i) ∧ want (demands.get i) = k).card ≤
      (Finset.univ.filter fun j : Fin pool.length => cls (pool.get j) = k).card := by
    intro k
    rw [card_filter_get demands fun a => narrow a ∧ want a = k,
      card_filter_get pool fun b => cls b = k]
    exact hclass k
  exact exists_injective_of_counts hgroups hclasses

theorem Assignable.imp {accepts accepts' : α → β → Prop} {demands : List α} {pool : List β}
    (h : Assignable accepts demands pool)
    (himp : ∀ a ∈ demands, ∀ b ∈ pool, accepts a b → accepts' a b) :
    Assignable accepts' demands pool := by
  obtain ⟨f, hf, haccepts⟩ := h
  exact ⟨f, hf, fun i => himp _ (List.get_mem _ _) _ (List.get_mem _ _) (haccepts i)⟩

end Shiftgate.Library
