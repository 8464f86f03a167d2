import Shiftgate.Migration.Orchestrator

/-! The events of a migration record: `Transition` of `internal/model/types.go` and `appendEvent` of
`internal/migration/orchestrator.go`. Both number an event from the number of events that the record
holds, and `appendEvent` drops all but the newest 256. -/

namespace Shiftgate.Migration

open Library List

structure Event where
  sequence : Nat
  stage : Stage
  message : String
  timestamp : Nat
  progress : Rat
  bytesDone : Int
  bytesTotal : Int

structure Record where
  stage : Stage
  updatedAt : Nat
  completedAt : Option Nat
  revision : Nat
  events : List Event

def Record.created (now : Nat) : Record where
  stage := .created
  updatedAt := now
  completedAt := none
  revision := 1
  events := [⟨1, .created, "migration created", now, 0, 0, 0⟩]

def Record.transition (r : Record) (target : Stage) (message : String) (progress : Rat)
    (now : Nat) : Option Record :=
  if !canTransition r.stage target then none
  else some
    { stage := target, updatedAt := now, revision := r.revision + 1
      completedAt := if target.terminal then some now else r.completedAt
      events := r.events ++ [⟨r.events.length + 1, target, message, now, progress, 0, 0⟩] }

def Record.appendEvent (r : Record) (message : String) (progress : Rat) (done total : Int)
    (now : Nat) : Record :=
  let events := r.events ++ [⟨r.events.length + 1, r.stage, message, now, progress, done, total⟩]
  { r with events := if events.length > 256 then events.drop (events.length - 256) else events }

inductive EventCall where
  | transition (target : Stage) (message : String) (progress : Rat) (now : Nat)
  | append (message : String) (progress : Rat) (done total : Int) (now : Nat)

def Record.call (r : Record) : EventCall → Option Record
  | .transition target message progress now => r.transition target message progress now
  | .append message progress done total now => some (r.appendEvent message progress done total now)

structure Log where
  record : Record
  appended : List Event

def Log.step (l : Log) (call : EventCall) : Option Log :=
  some (match l.record.call call with
    | none => l
    | some r => ⟨r, l.appended ++ r.events.getLast?.toList⟩)

def Log.created (now : Nat) : Log := ⟨.created now, (Record.created now).events⟩

def Log.complete (l : Log) : Bool := l.record.events.length == l.appended.length

structure Log.Numbered (l : Log) : Prop where
  sequences : l.appended.map (·.sequence) = List.range' 1 l.appended.length
  newest : l.record.events <:+ l.appended

theorem Record.call_events {r r' : Record} {call : EventCall} (h : r.call call = some r') :
    ∃ event, event.sequence = r.events.length + 1 ∧ r'.events ≠ [] ∧
      r'.events <:+ r.events ++ [event] := by
  cases call with
  | transition target message progress now =>
    simp only [call, transition, Option.ite_none_left_eq_some] at h
    cases h.2
    exact ⟨_, rfl, by simp, suffix_refl _⟩
  | append message progress done total now =>
    cases h
    refine ⟨⟨r.events.length + 1, r.stage, message, now, progress, done, total⟩, rfl, ?_⟩
    simp only [appendEvent]
    split_ifs
    · refine ⟨fun hnil => ?_, drop_suffix _ _⟩
      have := congrArg List.length hnil
      simp only [length_drop, length_nil] at this
      omega
    · exact ⟨by simp, suffix_refl _⟩

theorem Log.Numbered.step {l l' : Log} {call : EventCall} (h : l.Numbered)
    (hcomplete : l.complete = true) (hstep : l.step call = some l') : l'.Numbered := by
  unfold Log.step at hstep
  cases hcall : l.record.call call with
  | none =>
    rw [hcall] at hstep
    cases hstep
    exact h
  | some r =>
    rw [hcall] at hstep
    cases hstep
    obtain ⟨event, hsequence, hne, hsuffix⟩ := Record.call_events hcall
    -- Nothing was dropped, so the record's length is the number of events so far.
    have hlength : l.record.events.length = l.appended.length := by simpa [complete] using hcomplete
    have hlast : r.events.getLast? = some event := by
      obtain ⟨dropped, hdropped⟩ := hsuffix
      have hlast := congrArg List.getLast? hdropped
      simpa [getLast?_append_of_ne_nil _ hne] using hlast
    constructor
    · simp [hlast, h.sequences, hsequence, hlength, range'_concat, Nat.add_comm]
    · simp only [hlast, Option.toList_some, ← h.newest.eq_of_length hlength]
      exact hsuffix

/-- As long as every call finds a record with all its events, their numbers increase; the record
holds the newest. -/
theorem event_sequences_increase {now : Nat} {calls : List EventCall} {l : Log}
    (hcomplete : Meets Log.step (fun l _ => l.complete = true) (.created now) calls)
    (h : exec Log.step (.created now) calls = some l) :
    (l.appended.map (·.sequence)).Pairwise (· < ·) ∧ l.record.events <:+ l.appended := by
  have hnumbered : l.Numbered := exec_invariant Log.Numbered (fun _ _ _ hl hc hs => hl.step hc hs)
    ⟨rfl, suffix_refl _⟩ hcomplete h
  rw [hnumbered.sequences]
  exact ⟨pairwise_lt_range', hnumbered.newest⟩

theorem event_sequences_increase_sample : ∃ l,
    exec Log.step (.created 0) [.transition .discover "discovering" 0 1,
      .append "network plan" 0 0 0 2] = some l ∧
    (l.appended.map (·.sequence)).Pairwise (· < ·) ∧ l.record.events <:+ l.appended := by
  obtain ⟨l, hl⟩ : ∃ l, exec Log.step (.created 0) [.transition .discover "discovering" 0 1,
    .append "network plan" 0 0 0 2] = some l := ⟨_, rfl⟩
  exact ⟨l, hl, event_sequences_increase (by decide) hl⟩

theorem Log.step_append (l : Log) (message : String) (progress : Rat) (done total : Int)
    (now : Nat) : ∃ l', l.step (.append message progress done total now) = some l' ∧
      l'.record.events.length = min (l.record.events.length + 1) 256 ∧
      l'.appended.map (·.sequence) =
        l.appended.map (·.sequence) ++ [l.record.events.length + 1] := by
  refine ⟨_, rfl, ?_⟩
  simp only [Record.call, Record.appendEvent]
  split_ifs with h
  · rw [getLast?_drop, if_neg (by omega), length_drop, length_append, length_singleton]
    exact ⟨by omega, by simp⟩
  · simp only [length_append, length_singleton] at h ⊢
    exact ⟨by omega, by simp⟩

/-- An append numbers its event from the events that the record still holds. -/
theorem Log.exec_appends (n : Nat) : ∃ l,
    exec Log.step (.created 0) (replicate n (.append "progress" 0 0 0 0)) = some l ∧
      l.record.events.length = min (n + 1) 256 ∧
      l.appended.map (·.sequence) = 1 :: (range n).map fun i => min (i + 1) 256 + 1 := by
  induction n with
  | zero => exact ⟨_, rfl, rfl, rfl⟩
  | succ n ih =>
    obtain ⟨l, hl, hlength, hnumbers⟩ := ih
    obtain ⟨l', hstep, hlength', hnumbers'⟩ := l.step_append "progress" 0 0 0 0
    refine ⟨l', ?_, by omega, by simp [hnumbers', hnumbers, hlength, range_succ]⟩
    rw [replicate_succ', exec_append]
    exact ⟨l, hl, exec_cons.mpr ⟨l', hstep, rfl⟩⟩

/-- The event after the first that was dropped has the number of the one before it. -/
theorem event_sequence_repeats :
    (exec Log.step (.created 0) (List.replicate 257 (.append "progress" 0 0 0 0))).map
      (fun l => (l.appended.map (·.sequence)).drop 255) = some [256, 257, 257] := by
  obtain ⟨l, hl, -, hnumbers⟩ := Log.exec_appends 257
  rw [hl, Option.map_some, hnumbers]
  decide

end Shiftgate.Migration
