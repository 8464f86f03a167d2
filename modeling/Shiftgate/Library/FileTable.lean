import Mathlib.Tactic

/-! A directory of files as a table from names to contents. The table keeps the order in which its
files were created, which stands for the order a listing returns them in. -/

namespace Shiftgate.Library

structure FileTable (α : Type) where
  entries : List (String × α)
  deriving DecidableEq

namespace FileTable

variable {α : Type}

def empty : FileTable α := ⟨[]⟩

def get (t : FileTable α) (name : String) : Option α := t.entries.lookup name

def names (t : FileTable α) : List String := t.entries.map Prod.fst

def setEntries (name : String) (content : α) : List (String × α) → List (String × α)
  | [] => [(name, content)]
  | (n, c) :: rest =>
    if n = name then (n, content) :: rest else (n, c) :: setEntries name content rest

def set (t : FileTable α) (name : String) (content : α) : FileTable α :=
  ⟨setEntries name content t.entries⟩

def erase (t : FileTable α) (name : String) : FileTable α :=
  ⟨t.entries.filter fun entry => entry.1 ≠ name⟩

@[simp] theorem get_empty (name : String) : (empty : FileTable α).get name = none := rfl

theorem lookup_cons_eq_ite (name other : String) (content : α) (entries : List (String × α)) :
    ((name, content) :: entries).lookup other =
      if other = name then some content else entries.lookup other := by
  by_cases h : other = name
  · simp [h]
  · simp [List.lookup_cons, beq_false_of_ne h, h]

theorem lookup_setEntries (name other : String) (content : α) (entries : List (String × α)) :
    (setEntries name content entries).lookup other =
      if other = name then some content else entries.lookup other := by
  induction entries with
  | nil => simp [setEntries, lookup_cons_eq_ite]
  | cons entry rest ih =>
    obtain ⟨n, c⟩ := entry
    by_cases hn : n = name
    · subst hn
      simp only [setEntries, if_true, lookup_cons_eq_ite]
      split <;> rfl
    · simp only [setEntries, hn, if_false, lookup_cons_eq_ite, ih]
      by_cases h : other = n
      · simp [h, hn]
      · simp [h]

theorem mem_entries_of_get {t : FileTable α} {name : String} {content : α}
    (h : t.get name = some content) : (name, content) ∈ t.entries := by
  obtain ⟨before, after, hentries, -⟩ := List.lookup_eq_some_iff.mp h
  rw [hentries]
  simp

theorem get_set (t : FileTable α) (name other : String) (content : α) :
    (t.set name content).get other = if other = name then some content else t.get other :=
  lookup_setEntries name other content t.entries

@[simp] theorem get_set_same (t : FileTable α) (name : String) (content : α) :
    (t.set name content).get name = some content := by
  simp [get_set]

theorem get_set_other (t : FileTable α) {name other : String} (content : α) (h : other ≠ name) :
    (t.set name content).get other = t.get other := by
  simp [get_set, h]

theorem get_erase (t : FileTable α) (name other : String) :
    (t.erase name).get other = if other = name then none else t.get other := by
  unfold get erase
  induction t.entries with
  | nil => simp
  | cons entry rest ih =>
    obtain ⟨n, c⟩ := entry
    by_cases hn : n = name
    · subst hn
      rw [List.filter_cons_of_neg (by simp), ih, lookup_cons_eq_ite]
      by_cases h : other = n <;> simp [h]
    · rw [List.filter_cons_of_pos (by simpa using hn), lookup_cons_eq_ite, lookup_cons_eq_ite, ih]
      by_cases h : other = n
      · simp [h, hn]
      · simp [h]

end FileTable

end Shiftgate.Library
