import Mathlib.Tactic

/-! A log of numbered changes replayed over a numbered snapshot: an entry older than what is known
is skipped, every other one is applied and raises the number. -/

namespace Shiftgate.Library

variable {R S : Type} [LinearOrder R]

structure LogEntry (R S : Type) where
  revision : R
  change : S → S

namespace LogEntry

def replay (start : R × S) : List (LogEntry R S) → R × S
  | [] => start
  | e :: rest => if e.revision < start.1 then replay start rest
      else replay (e.revision, e.change start.2) rest

variable {start : R × S} {entries : List (LogEntry R S)}

@[simp] theorem replay_nil : replay start ([] : List (LogEntry R S)) = start := rfl

theorem replay_append (more : List (LogEntry R S)) :
    replay start (entries ++ more) = replay (replay start entries) more := by
  induction entries generalizing start with
  | nil => rfl
  | cons e rest ih =>
    rw [List.cons_append, replay, replay]
    split <;> exact ih

/-- An entry that is new is applied to what the log before it gives. -/
theorem replay_concat {e : LogEntry R S} (h : (replay start entries).1 ≤ e.revision) :
    replay start (entries ++ [e]) = (e.revision, e.change (replay start entries).2) := by
  rw [replay_append, replay, if_neg (not_lt.mpr h), replay_nil]

/-- A log whose entries are older than the snapshot, or of its age and in it, changes nothing. -/
theorem replay_absorbed (h : ∀ e ∈ entries, e.revision < start.1 ∨
    e.revision = start.1 ∧ e.change start.2 = start.2) : replay start entries = start := by
  induction entries with
  | nil => rfl
  | cons e rest ih =>
    have hrest : replay start rest = start := ih fun e' he' => h e' (List.mem_cons_of_mem _ he')
    rw [replay]
    rcases h e List.mem_cons_self with hlt | ⟨heq, hchange⟩
    · rw [if_pos hlt, hrest]
    · rw [if_neg (by simp [heq]), heq, hchange, hrest]

end LogEntry

end Shiftgate.Library
