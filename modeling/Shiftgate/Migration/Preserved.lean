import Shiftgate.Migration.Wiring
import Shiftgate.Transfer.Committed

/-! When the source's workload is stopped for good: after the destination has said that it has
committed, which is true as long as no rollback writes over a record committed since it was read. -/

namespace Shiftgate.Migration.System

open Library Checkpoint Transfer

variable {machine : String} {s t : System} {a : Action}

def RollsUncommitted (s : System) : Action → Prop
  | .destination a => Transfer.RollsUncommitted s.destination a
  | _ => True

structure Guarded (machine : String) (s : System) : Prop where
  wired : Wired machine s
  stopped : Stopped s.destination
  fresh : Fresh s.destination
  backed : Backed s.destination
  custody : s.source.Custody True (CommittedRestore s.destination) s.Asked

theorem Wired.asked_of_committed (hw : Wired machine s) (h : CommittedRestore s.destination) :
    s.Asked := by
  by_contra hasked
  obtain ⟨id, hid⟩ := h
  simp [(hw.untouched hasked).records] at hid

section

variable (h : Guarded machine s)

include h

theorem Guarded.told {answer : Answer} {r : Reply} {c : Bool} (ha : s.answered = some answer)
    (hr : decode answer = some r) :
    s.source.Told True (CommittedRestore s.destination) s.Asked (.reply r c) := by
  obtain ⟨call, attempt, j, task, hpending, hsend, hmem, -, htask, hpoint, hreaches⟩ :=
    h.wired.answered ha
  have committed {session} (hanswer : answer = .session session)
      (hstate : session.state = .committed) : CommittedRestore s.destination :=
    h.backed.copies j task session htask (by rw [hpoint, hanswer]; rfl) hstate
  simp only [Source.Told]
  split
  · rename_i call' rest f hc
    have hcall : call' = call := by simpa [Source.pending, hc] using hpending
    subst hcall
    refine fun haccepts => ⟨fun hcommit => ?_, fun hrestore => ?_⟩
    · subst hcommit
      rw [Call.sends_commit hsend] at hreaches
      obtain ⟨session, hanswer, hstate⟩ := decode_reports hr haccepts hreaches
      exact committed hanswer hstate
    · subst hrestore
      exact ⟨attempt, hmem, Call.restore_sends hsend⟩
  · exact fun _ => trivial
  · exact fun _ => trivial
  · refine ⟨fun _ => trivial, fun hcommitted => ?_⟩
    subst hcommitted
    obtain ⟨session, hanswer, hstate⟩ := decode_session hr
    exact committed hanswer hstate
  · trivial

theorem Guarded.destination {destination : Destination} {b : Transfer.Action}
    (hm : Move machine s a t) (hsource : t.source = s.source)
    (hdestination : t.destination = destination) (hasked : t.Asked ↔ s.Asked)
    (hrolls : Transfer.RollsUncommitted s.destination b)
    (hs : s.destination.step b = some destination) : Guarded machine t := by
  subst hdestination
  refine ⟨h.wired.move hm, h.stopped.step hs, h.fresh.step h.stopped hs,
    h.backed.step h.fresh hrolls hs, ?_⟩
  rw [hsource, propext hasked]
  exact h.custody.mono id fun hcommitted => hcommitted.step h.fresh hrolls (step_change hs)

theorem Guarded.source {e : Source.Event} (hm : Move machine s a t)
    (hdestination : t.destination = s.destination) (hasked : t.Asked ↔ s.Asked)
    (htold : s.source.Told True (CommittedRestore s.destination) s.Asked e)
    (hs : s.source.step e = some t.source) : Guarded machine t := by
  refine ⟨h.wired.move hm, hdestination ▸ h.stopped, hdestination ▸ h.fresh,
    hdestination ▸ h.backed, ?_⟩
  rw [hdestination, propext hasked]
  exact h.custody.move (fun _ => trivial) h.wired.asked_of_committed htold (Source.step_move hs)

theorem Guarded.move (hrolls : s.RollsUncommitted a) (hm : Move machine s a t) :
    Guarded machine t := by
  have hwired := h.wired.move hm
  have sent (hsource : t.source = s.source) (hdestination : t.destination = s.destination) :
      Guarded machine t := by
    refine ⟨hwired, hdestination ▸ h.stopped, hdestination ▸ h.fresh, hdestination ▸ h.backed, ?_⟩
    rw [hsource, hdestination]
    rcases hm.asked with hiff | ⟨hasked, -, hpending⟩
    · rw [propext hiff]
      exact h.custody
    · obtain ⟨rest, f, hc⟩ := Source.pending_restore hpending
      exact h.custody.ask hc hasked
  cases hm with
  | own hreply hcrash hs =>
    exact h.source (.own hreply hcrash hs) rfl Iff.rfl (Source.told_of_not_reply hreply) hs
  | crash => exact h.source (e := .crash) .crash rfl Iff.rfl trivial rfl
  | upload | send | lose => exact sent rfl rfl
  | @arrive k request destination hk hs =>
    exact h.destination (b := .start machine request) (.arrive hk hs) rfl rfl (asked_set hk rfl)
      trivial hs
  | answer ha hr hs => exact h.source (.answer ha hr hs) rfl Iff.rfl (h.told ha hr) hs
  | giveUp hs => exact h.source (.giveUp hs) rfl Iff.rfl Source.told_failed hs
  | destination ha hs => exact h.destination (.destination ha hs) rfl rfl Iff.rfl hrolls hs

end

theorem initial_guarded (mode : Mode) (paused standby : Bool) :
    Guarded machine (initial mode paused standby) where
  wired := initial_wired mode paused standby
  stopped := stopped_initial standby
  fresh := fresh_initial standby
  backed := backed_initial standby
  custody := initial_custody mode paused standby

/-- In every run, whatever fails, is lost or restarts, in which no rollback of the destination
writes over a record committed since it was read: the source calls `runtime.Stop` only while a
restore of the migration is committed; and until then the record says that the source is preserved.
-/
theorem source_stopped_only_committed {mode : Mode} {paused standby : Bool} {as : List Action}
    (hmeets : Meets (step machine) RollsUncommitted (initial mode paused standby) as)
    (hrun : exec (step machine) (initial mode paused standby) as = some s) :
    (∀ outcome t, step machine s (.source (.stop outcome)) = some t →
      ∃ id : Nat, s.destination.restores.records[id]? = some RestoreState.committed) ∧
    (s.source.stopCalls = 0 → s.source.sourcePreserved = true) := by
  have hguarded : Guarded machine s :=
    exec_invariant (Guarded machine) (fun s a t h hrolls hstep => h.move hrolls (step_move hstep))
      (initial_guarded mode paused standby) hmeets hrun
  refine ⟨fun outcome t hstop => ?_, fun hnone => ?_⟩
  · obtain ⟨source, hs, -⟩ := Option.map_eq_some_iff.mp hstop
    simp only [Source.step] at hs
    split at hs
    · exact hguarded.custody.stopping ‹_›
    · cases hs
  · cases hp : s.source.sourcePreserved with
    | true => rfl
    | false =>
      have := hguarded.custody.preserved hp
      omega

instance (s : System) : ∀ a, Decidable (s.RollsUncommitted a)
  | .destination a => inferInstanceAs (Decidable (Transfer.RollsUncommitted s.destination a))
  | .source _ | .send _ | .arrive _ | .lose | .answer _ | .giveUp _ => isTrue trivial

def committedMove : List Action := toCommit ++ calls 6 .commit 3 ++ ownSteps 1

theorem committedMove_stops_source : ∃ s t,
    exec (step "source") (initial .cold false false) committedMove = some s ∧
      step "source" s (.source (.stop .ok)) = some t ∧
      ∃ id : Nat, s.destination.restores.records[id]? = some RestoreState.committed := by
  obtain ⟨s, hs, hstop⟩ : ∃ s, exec (step "source") (initial .cold false false) committedMove =
      some s ∧ (step "source" s (.source (.stop .ok))).isSome := by decide
  obtain ⟨t, ht⟩ := Option.isSome_iff_exists.mp hstop
  exact ⟨s, t, hs, ht, (source_stopped_only_committed (by decide) hs).1 .ok t ht⟩

def overtakenRollback : List Action :=
  toCommit ++ [.send .commit, .giveUp false] ++ ownSteps 2 ++
  [.send .rollback, .arrive 7, .destination (.advance 6 .ok), .arrive 6] ++ serves 7 3 ++
  [.source .crash, .source (.recover true)] ++ calls 8 .getCleanup 0 ++ serves 6 1

theorem overtakenRollback_stops_source : ∃ s t,
    exec (step "source") (initial .cold false false) overtakenRollback = some s ∧
      step "source" s (.source (.stop .ok)) = some t ∧
      s.destination.restores.records = [.rollingBack] := by
  simp only [exists_and_left]
  decide

end Shiftgate.Migration.System
