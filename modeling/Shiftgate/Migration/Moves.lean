import Shiftgate.Migration.Orchestrator

/-! Everything that one step of the source can do, said once: `Move s e t` lists the changes, and
`step_move` finds the one that a step made. Every invariant of the source is a case analysis of
`Move`. -/

namespace Shiftgate.Migration

def Instr.passes : Instr → Bool
  | .check | .uploadPasses | .transferRounds | .checkpoint .dump => true
  | _ => false

def Instr.notes : Instr → Bool
  | .noteFreezeOwnership | .noteDowntimeStart => true
  | _ => false

def Instr.claims : Instr → Bool
  | .claimFreeze | .confirmFreeze => true
  | _ => false

def Instr.fails (mode : Mode) : Instr → Bool
  | .transition _ | .check | .uploadPasses | .transferRounds | .readWorkload | .call _ => true
  | .checkpointPaused => true
  | .checkpoint step => !Source.undoes mode step
  | _ => false

def CheckpointStep.records : CheckpointStep → Option WorkloadStatus
  | .put => some .paused
  | .mark => some .checkpointed
  | _ => none

def Call.accepts (c : Call) (r : Reply) : Bool :=
  match c with
  | .get => r = .session .restored
  | _ => r.ok

def Flags.after (f : Flags) : Call → Flags
  | .reserve => { f with reserved := true }
  | .commit => { f with committed := true }
  | _ => f

def Reply.settled : Reply → Bool
  | .session .rolledBack | .session .failed | .notFound => true
  | _ => false

namespace Source

/-- A value that the source may or may not have written is left open. -/
inductive Move (s : Source) : Event → Source → Prop
  -- `run`
  | transition {stage rest f c} (hc : s.control = .running (.transition stage :: rest) f) :
      Move s (.step true c) { s with stage, control := .running rest f }
  | pass {i rest f c} (hc : s.control = .running (i :: rest) f) (hi : i.passes) :
      Move s (.step true c) (s.goto (.running rest f))
  | note {i rest f ok c} (fact : Option Bool) (hc : s.control = .running (i :: rest) f)
      (hi : i.notes) : Move s (.step ok c) { s with fact, control := .running rest f }
  | read {rest f c} (hc : s.control = .running (.readWorkload :: rest) f) :
      Move s (.step true c) (s.goto (.running rest { f with wasRunning := s.status = .running }))
  | claim {i rest f ok c} (hc : s.control = .running (i :: rest) f) (hi : i.claims) :
      Move s (.step ok c) (s.goto (.running rest { f with sourceFrozen := f.wasRunning }))
  | freeze {rest f c} (hc : s.control = .running (.checkpoint .stop :: rest) f) (ha : s.alive) :
      Move s (.step true c)
        { s with process := .stopped, froze := true, control := .running rest f }
  | record {step rest f c status} (hc : s.control = .running (.checkpoint step :: rest) f)
      (hs : step.records = some status) :
      Move s (.step true c) { s with status, control := .running rest f }
  | paused {rest f c} (hc : s.control = .running (.checkpointPaused :: rest) f) :
      Move s (.step true c) { s with status := .checkpointed, control := .running rest f }
  | replied {call rest f r c} (hc : s.control = .running (.call call :: rest) f)
      (hr : call.accepts r) : Move s (.reply r c) (s.goto (.running rest (f.after call)))
  | fails {i rest f e c} (hc : s.control = .running (i :: rest) f) (hi : i.fails s.mode)
      (hput : i = .checkpoint .put → ∃ c', e = .step false c') : Move s e (s.fail f c)
  | undo {step rest f ok c} (hc : s.control = .running (.checkpoint step :: rest) f)
      (hs : undoes s.mode step) : Move s (.step ok c) (s.goto (.undoing f c))
  | cleanup {rest f ok c stage} (hc : s.control = .running (.cleanup :: rest) f)
      (hs : stage = s.stage ∨ stage = .cleanup) :
      Move s (.step ok c) { s with stage, control := .stopping .run 3 }
  -- the resume of a failed checkpoint
  | resume {f c ok c'} (hc : s.control = .undoing f c) (ha : s.alive) :
      Move s (.step ok c') { s with process := .running, control := .undone f c }
  | unresumed {f c ok c'} (hc : s.control = .undoing f c) (ha : s.alive = false) :
      Move s (.step ok c') (s.afterUndo f c)
  | undone {f c ok c' status} (hc : s.control = .undone f c)
      (hs : status = s.status ∨ status = .running) :
      Move s (.step ok c') ({ s with status }.afterUndo f c)
  | noted {f c ok c'} (fact : Option Bool) (hc : s.control = .noting f c) :
      Move s (.step ok c') ({ s with fact }.fail { f with sourceFrozen := f.wasRunning } c)
  -- `handleFailure` and `handleCancellation`
  | ended {f h ok c} (hc : s.control = .handling .entry f h) (ht : s.stage.terminal) :
      Move s (.step ok c) (s.goto .idle)
  | settleCommitted {f h ok c preserved} (hc : s.control = .handling .entry f h)
      (hf : f.committed) (hp : preserved = s.sourcePreserved ∨ preserved = true) :
      Move s (.step ok c)
        { s with sourcePreserved := preserved, control := .stopping .settleCommitted 3 }
  | mark {f h ok c preserved} (hc : s.control = .handling .entry f h)
      (hp : preserved = s.sourcePreserved ∨ preserved = true) :
      Move s (.step ok c) ({ s with sourcePreserved := preserved }.handle (.mark 3) f h)
  | remark {left f h ok c} (hc : s.control = .handling (.mark left) f h) :
      Move s (.step ok c) (s.handle (.mark (left - 1)) f h)
  | rollBack {point f h ok c stage preserved} (hc : s.control = .handling point f h)
      (hpoint : point = .entry ∨ ∃ left, point = .mark left)
      (hs : stage = s.stage ∨ stage = .rollingBack)
      (hp : preserved = s.sourcePreserved ∨ preserved = true) :
      Move s (.step ok c) ({ s with stage, sourcePreserved := preserved }.beginRollback f h)
  | preFail {f h ok c stage preserved} (hc : s.control = .handling .entry f h)
      (hstart : s.stage = .created ∨ s.stage = .cleanup) (hs : stage = s.stage ∨ stage = .failed)
      (hp : preserved = s.sourcePreserved ∨ preserved = true) :
      Move s (.step ok c)
        ({ s with stage, sourcePreserved := preserved }.beginRollback f
          { h with preFailed := true })
  | confirmed {left f h r c} (hc : s.control = .handling (.rollback left) f h)
      (hr : r.ok ∨ r = .notFound) : Move s (.reply r c) (s.handle .thaw f { h with safe := true })
  | unconfirmed {left f h r c} (hc : s.control = .handling (.rollback left) f h) :
      Move s (.reply r c) (s.unconfirmed f h)
  | retry {left f h r c} (hc : s.control = .handling (.rollback left) f h) :
      Move s (.reply r c) (s.handle (.rollback (left - 1)) f h)
  | probed {f h r c} (hc : s.control = .handling .probe f h) :
      Move s (.reply r c) (s.handle .thaw f { h with safe := probeSafe r })
  | thaw {f h ok c} (hc : s.control = .handling .thaw f h) : Move s (.step ok c) (s.thaw f h)
  | thawed {f h ok c status resumeFailed} (hc : s.control = .handling .thawed f h)
      (hs : status = s.status ∨ status = .running) :
      Move s (.step ok c) ({ s with status }.handle .preserve f { h with resumeFailed })
  | preserve {f h ok c preserved} (hc : s.control = .handling .preserve f h)
      (hp : preserved = s.sourcePreserved ∨ preserved = true) :
      Move s (.step ok c) ({ s with sourcePreserved := preserved }.handle .settle f h)
  | settle {f h ok c} (hc : s.control = .handling .settle f h) (hsafe : h.safe) :
      Move s (.step ok c) { s with stage := h.target, control := .idle }
  | unsettled {f h ok c} (hc : s.control = .handling .settle f h) :
      Move s (.step ok c) (s.goto .idle)
  -- `recoverOne`
  | committed {f c} (hc : s.control = .recovering f) :
      Move s (.reply (.session .committed) c) (s.goto (.stopping .recoverOne 3))
  | nothing {f r c} (hc : s.control = .recovering f) (hr : r.settled) :
      Move s (.reply r c) (s.fail { f with reserved := false } false)
  | present {f r c} (hc : s.control = .recovering f) (hr : r ≠ .session .committed) :
      Move s (.reply r c) (s.fail f false)
  -- the end of a committed migration
  | stopped {site left} (hc : s.control = .stopping site left) :
      Move s (.stop .ok)
        { s with stopCalls := s.stopCalls + 1, process := .dead, recorded := false,
                 status := .stopped, control := afterStop site true }
  | stopFails {site left outcome process control} (hc : s.control = .stopping site left)
      (hp : process = s.process ∨ process = .dead ∨
        process = .running ∧ s.alive ∧ s.status ≠ .checkpointed)
      (hn : control = afterStop site false ∨ control = .stopping site (left - 1)) :
      Move s (.stop outcome) { s with stopCalls := s.stopCalls + 1, process, control }
  | preserved {stopped ok c} (hc : s.control = .preserving stopped) :
      Move s (.step ok c) { s with sourcePreserved := !stopped, control := .completing stopped }
  | completed {stopped ok c} (hc : s.control = .completing stopped) :
      Move s (.step ok c) { s with stage := .completed, control := .idle }
  | force {stopped ok c} (hc : s.control = .preserving stopped ∨ s.control = .completing stopped) :
      Move s (.step ok c) (s.goto (.forcing stopped))
  | forced {stopped ok c} (hc : s.control = .forcing stopped) :
      Move s (.step ok c)
        { s with stage := .completed, sourcePreserved := !stopped, control := .idle }
  | unforced {stopped ok c} (hc : s.control = .forcing stopped) : Move s (.step ok c) (s.goto .idle)
  -- the workload and the agent
  | exit {written recorded status} (hr : recorded = s.recorded ∨ recorded = false) :
      Move s (.exit written) { s with process := .dead, recorded, status }
  | crash : Move s .crash (s.goto .down)
  | recover {client} (hc : s.control = .down) : Move s (.recover client) (s.recover client)

variable {s t : Source} {e : Event} {rest : List Instr} {f : Flags} {h : Handling}

variable {c : Bool} {i : Instr} {r : Reply} {point : HandlerPoint} {mode : Mode}

theorem checkpointStep_move {step : CheckpointStep} {ok : Bool}
    (hc : s.control = .running (.checkpoint step :: rest) f) :
    Move s (.step ok c) (s.checkpointStep rest f ok c step) := by
  have failed (hok : step = .put → ok = false) :
      Move s (.step ok c) (s.checkpointFailed step f c) := by
    unfold checkpointFailed
    split_ifs with hu
    · exact .undo hc hu
    · exact .fails hc (by simpa [Instr.fails] using hu) fun h => ⟨c, by cases h; rw [hok rfl]⟩
  cases step with
  | stop =>
    simp only [checkpointStep]
    split_ifs with hs
    · obtain ⟨rfl, ha, -⟩ := hs
      exact .freeze hc ha
    · exact failed nofun
  | put =>
    cases ok with
    | true => exact .record hc rfl
    | false => exact failed fun _ => rfl
  | dump =>
    cases ok with
    | true => exact .pass hc rfl
    | false => exact failed nofun
  | mark =>
    cases ok with
    | true => exact .record hc rfl
    | false => exact failed nofun

theorem runStep_move {ok : Bool} (hc : s.control = .running (i :: rest) f)
    (hs : s.runStep rest f ok c i = some t) : Move s (.step ok c) t := by
  cases i with
  | transition stage =>
    simp only [runStep] at hs
    split_ifs at hs with hok
    · cases hs
      obtain ⟨rfl, -⟩ := hok
      exact .transition hc
    · cases hs
      exact .fails hc rfl nofun
  | check | uploadPasses | transferRounds =>
    simp only [runStep] at hs
    split_ifs at hs with hok
    · cases hs
      cases hok
      exact .pass hc rfl
    · cases hs
      exact .fails hc rfl nofun
  | readWorkload =>
    simp only [runStep] at hs
    split_ifs at hs with hok
    · cases hs
      cases hok
      exact .read hc
    · cases hs
      exact .fails hc rfl nofun
  | noteFreezeOwnership | noteDowntimeStart =>
    cases hs
    exact .note _ hc rfl
  | claimFreeze | confirmFreeze =>
    cases hs
    exact .claim hc rfl
  | checkpoint step =>
    cases hs
    exact checkpointStep_move hc
  | checkpointPaused =>
    simp only [runStep] at hs
    split_ifs at hs with hok
    · cases hs
      cases hok
      exact .paused hc
    · cases hs
      exact .fails hc rfl nofun
  | call call => cases hs
  | cleanup =>
    cases hs
    refine .cleanup hc ?_
    split_ifs
    · exact .inr rfl
    · exact .inl rfl

theorem runReply_move {call : Call} (hc : s.control = .running (.call call :: rest) f) :
    Move s (.reply r c) (s.runReply rest f r c call) := by
  cases call <;>
  · simp only [runReply]
    split_ifs with hr
    · exact .replied hc (by simpa [Call.accepts] using hr)
    · exact .fails hc rfl nofun

theorem stage_of_not_rollingBack {stage : Stage} (ht : ¬ stage.terminal)
    (hr : stage ≠ .rollingBack) (hn : ¬ canTransition stage .rollingBack) :
    stage = .created ∨ stage = .cleanup := by
  revert ht hr hn
  cases stage <;> decide

theorem handlerEntry_move {ok : Bool} (hc : s.control = .handling .entry f h) :
    Move s (.step ok c) (s.handlerEntry f h ok) := by
  -- the record that the source is preserved is written or not
  obtain ⟨p, hp, heq⟩ : ∃ p, (p = s.sourcePreserved ∨ p = true) ∧
      (if h.cancellation ∧ ok then { s with sourcePreserved := true } else s) =
        { s with sourcePreserved := p } := by
    split_ifs
    · exact ⟨true, .inr rfl, rfl⟩
    · exact ⟨s.sourcePreserved, .inl rfl, rfl⟩
  simp only [handlerEntry, heq]
  by_cases ht : s.stage.terminal
  · rw [if_pos ht]
    exact .ended hc ht
  rw [if_neg ht]
  split_ifs with hf hr hn hfail hok
  · exact .settleCommitted hc hf hp
  · exact .rollBack hc (.inl rfl) (.inl rfl) hp
  · exact .mark hc hp
  · exact .preFail hc (stage_of_not_rollingBack ht hr hn) (.inr rfl) hp
  · exact .preFail hc (stage_of_not_rollingBack ht hr hn) (.inl rfl) hp
  · exact .rollBack hc (.inl rfl) (.inl rfl) hp

theorem handlerStep_move {ok : Bool} (hc : s.control = .handling point f h)
    (hs : s.handlerStep f h ok point = some t) : Move s (.step ok c) t := by
  cases point with
  | entry =>
    cases hs
    exact handlerEntry_move hc
  | mark left =>
    simp only [handlerStep] at hs
    split_ifs at hs
    · cases hs
      exact .rollBack hc (.inr ⟨left, rfl⟩) (.inr rfl) (.inl rfl)
    · cases hs
      exact .rollBack hc (.inr ⟨left, rfl⟩) (.inl rfl) (.inl rfl)
    · cases hs
      exact .remark hc
  | rollback | probe => cases hs
  | thaw =>
    cases hs
    exact .thaw hc
  | thawed =>
    simp only [handlerStep] at hs
    split_ifs at hs
    · cases hs
      exact .thawed hc (.inr rfl)
    · cases hs
      exact .thawed hc (.inl rfl)
  | preserve =>
    cases hs
    refine .preserve hc ?_
    cases ok
    · exact .inl (Bool.or_false _)
    · exact .inr (Bool.or_true _)
  | settle =>
    simp only [handlerStep] at hs
    split_ifs at hs with hsafe
    · cases hs
      exact .settle hc hsafe.2.1
    · cases hs
      exact .unsettled hc

theorem handlerReply_move (hc : s.control = .handling point f h)
    (hs : s.handlerReply f h r c point = some t) : Move s (.reply r c) t := by
  cases point with
  | rollback left =>
    simp only [handlerReply] at hs
    split_ifs at hs with hr
    · cases hs
      exact .confirmed hc hr
    · cases hs
      exact .unconfirmed hc
    · cases hs
      exact .retry hc
  | probe =>
    cases hs
    exact .probed hc
  | _ => cases hs

theorem recoverReply_move (hc : s.control = .recovering f) :
    Move s (.reply r c) (s.recoverReply f r) := by
  cases r with
  | session state =>
    cases state with
    | committed => exact .committed hc
    | rolledBack | failed => exact .nothing hc rfl
    | _ => exact .present hc nofun
  | notFound => exact .nothing hc rfl
  | done | failed => exact .present hc nofun

theorem stopStep_move {site : StopSite} {left : Nat} {outcome : StopOutcome}
    (hc : s.control = .stopping site left) (hs : s.stopStep site left outcome = some t) :
    Move s (.stop outcome) t := by
  have retry : ∀ control, control = (if left ≤ 1 then afterStop site false
      else .stopping site (left - 1)) →
      control = afterStop site false ∨ control = .stopping site (left - 1) := by
    rintro _ rfl
    split_ifs
    · exact .inl rfl
    · exact .inr rfl
  cases outcome with
  | ok =>
    cases hs
    exact .stopped hc
  | unrecorded =>
    cases hs
    exact .stopFails hc (.inr (.inl rfl)) (retry _ rfl)
  | continued =>
    obtain ⟨hp, hs⟩ := Option.ite_none_right_eq_some.mp hs
    cases hs
    exact .stopFails hc (.inr (.inr ⟨rfl, hp⟩)) (retry _ rfl)
  | failed =>
    cases hs
    exact .stopFails hc (.inl rfl) (retry _ rfl)

theorem step_move (hs : s.step e = some t) : Move s e t := by
  cases e with
  | step ok c =>
    simp only [step] at hs
    split at hs
    · exact runStep_move ‹_› hs
    · split_ifs at hs with ha
      · cases hs
        exact .resume ‹_› ha
      · cases hs
        exact .unresumed ‹_› (by simpa using ha)
    · split_ifs at hs
      · cases hs
        exact .undone ‹_› (.inr rfl)
      · cases hs
        exact .undone ‹_› (.inl rfl)
    · cases hs
      exact .noted _ ‹_›
    · exact handlerStep_move ‹_› hs
    · split_ifs at hs
      · cases hs
        exact .preserved ‹_›
      · cases hs
        exact .force (.inl ‹_›)
    · split_ifs at hs
      · cases hs
        exact .completed ‹_›
      · cases hs
        exact .force (.inr ‹_›)
    · split_ifs at hs
      · cases hs
        exact .forced ‹_›
      · cases hs
        exact .unforced ‹_›
    · cases hs
  | reply r c =>
    simp only [step] at hs
    split at hs
    · cases hs
      exact runReply_move ‹_›
    · exact handlerReply_move ‹_› hs
    · cases hs
      exact recoverReply_move ‹_›
    · cases hs
  | stop outcome =>
    simp only [step] at hs
    split at hs
    · exact stopStep_move ‹_› hs
    · cases hs
  | exit written =>
    simp only [step] at hs
    split_ifs at hs
    · cases hs
      exact .exit (.inr rfl)
    · cases hs
      exact .exit (.inl rfl)
  | crash =>
    cases hs
    exact .crash
  | recover client =>
    simp only [step] at hs
    split_ifs at hs with hc
    cases hs
    exact .recover hc

theorem afterUndo_control (s : Source) (f : Flags) (c : Bool) (g : Flags) :
    (s.afterUndo f c).control ≠ .running rest g := by
  unfold afterUndo
  split <;> nofun

theorem unconfirmed_control (s : Source) (f : Flags) (h : Handling) (g : Flags) :
    (s.unconfirmed f h).control ≠ .running rest g := by
  unfold Source.unconfirmed
  split_ifs <;> nofun

theorem beginRollback_control (s : Source) (f : Flags) (h : Handling) (g : Flags) :
    (s.beginRollback f h).control ≠ .running rest g := by
  unfold beginRollback
  split_ifs
  · nofun
  · exact unconfirmed_control s f h g
  · nofun

theorem thaw_control (s : Source) (f : Flags) (h : Handling) (g : Flags) :
    (s.thaw f h).control ≠ .running rest g := by
  unfold Source.thaw
  split_ifs <;> nofun

theorem recover_control (s : Source) (client : Bool) (g : Flags) :
    (s.recover client).control ≠ .running rest g := by
  unfold Source.recover
  split_ifs <;> nofun

theorem Move.running (hm : s.Move e t) (ht : t.control = .running rest f) :
    s.control = .running rest f ∨ ∃ i f', s.control = .running (i :: rest) f' ∧
      ∀ call, i = .call call → ∃ r c, e = .reply r c ∧ call.accepts r := by
  cases hm with
  | transition hc | read hc | freeze hc | record hc | paused hc =>
    cases ht
    exact .inr ⟨_, _, hc, nofun⟩
  | pass hc hi | note _ hc hi | claim hc hi =>
    cases ht
    refine .inr ⟨_, _, hc, ?_⟩
    rintro call rfl
    cases hi
  | replied hc hr =>
    cases ht
    refine .inr ⟨_, _, hc, fun call hcall => ?_⟩
    cases hcall
    exact ⟨_, _, rfl, hr⟩
  | exit => exact .inl ht
  | unresumed | undone => exact absurd ht (afterUndo_control _ _ _ _)
  | rollBack | preFail => exact absurd ht (beginRollback_control _ _ _ _)
  | unconfirmed => exact absurd ht (unconfirmed_control _ _ _ _)
  | thaw => exact absurd ht (thaw_control _ _ _ _)
  | recover => exact absurd ht (recover_control _ _ _)
  | @stopped site => cases site <;> cases ht
  | @stopFails site _ _ _ _ _ _ hn =>
    rcases hn with rfl | rfl
    · cases site <;> cases ht
    · cases ht
  | _ => cases ht

theorem Move.froze (hm : s.Move e t) (hf : s.froze) : t.froze := by
  cases hm with
  | freeze => rfl
  | unresumed | undone =>
    unfold afterUndo
    split <;> exact hf
  | rollBack | preFail =>
    unfold beginRollback Source.unconfirmed
    split_ifs <;> exact hf
  | unconfirmed =>
    unfold Source.unconfirmed
    split_ifs <;> exact hf
  | thaw =>
    unfold Source.thaw
    split_ifs <;> exact hf
  | recover =>
    unfold Source.recover reconcile
    split_ifs <;> exact hf
  | _ => exact hf

theorem at_place {P : List Instr → Prop} (hp : ∀ place ∈ (run mode).tails, P place)
    (hr : rest <:+ run mode) : P rest :=
  hp rest ((List.mem_tails rest _).mpr hr)

theorem at_instr {P : Instr → List Instr → Prop}
    (hp : ∀ place ∈ (run mode).tails, ∀ i ∈ place.head?, P i place.tail)
    (hr : i :: rest <:+ run mode) : P i rest :=
  hp (i :: rest) ((List.mem_tails _ _).mpr hr) i rfl

theorem suffix_tail (hr : i :: rest <:+ run mode) : rest <:+ run mode :=
  (List.suffix_cons i rest).trans hr

end Source

end Shiftgate.Migration
