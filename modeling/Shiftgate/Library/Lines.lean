import Mathlib.Tactic

/-! Lines in a sequence of symbols: a text is a list of terminated lines and an unterminated rest,
and splitting at the terminator gives both back when neither holds a terminator. -/

namespace Shiftgate.Library

open List

variable {β : Type}

def terminated (sep : β) (lines : List (List β)) : List β := lines.flatMap (· ++ [sep])

@[simp] theorem terminated_nil (sep : β) : terminated sep [] = [] := rfl

@[simp] theorem terminated_cons (sep : β) (line : List β) (rest : List (List β)) :
    terminated sep (line :: rest) = line ++ sep :: terminated sep rest := by
  simp [terminated]

theorem terminated_append (sep : β) (xs ys : List (List β)) :
    terminated sep (xs ++ ys) = terminated sep xs ++ terminated sep ys := by
  simp [terminated]

theorem splitOn_of_not_mem [DecidableEq β] {sep : β} {rest : List β} (h : sep ∉ rest) :
    rest.splitOn sep = [rest] := by
  have hlines : ∀ line ∈ [rest], sep ∉ line := by simpa using h
  simpa using splitOn_intercalate sep hlines (by simp)

theorem splitOn_terminated [DecidableEq β] {sep : β} {lines : List (List β)} {rest : List β}
    (hlines : ∀ line ∈ lines, sep ∉ line) (hrest : sep ∉ rest) :
    (terminated sep lines ++ rest).splitOn sep = lines ++ [rest] := by
  induction lines with
  | nil => simpa using splitOn_of_not_mem hrest
  | cons line others ih =>
    have hline : sep ∉ line := hlines line mem_cons_self
    rw [terminated_cons, append_assoc, cons_append, List.splitOn,
      splitOnP_append_cons_of_forall_mem _ _ (by simp), ← List.splitOn,
      ih fun l hl => hlines l (mem_cons_of_mem _ hl), cons_append]
    intro x hx
    have : x ≠ sep := fun h => hline (h ▸ hx)
    simpa using this

end Shiftgate.Library
