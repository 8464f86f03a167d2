import Shiftgate.Migration.Moves

/-! Whether a workload can stay frozen behind a settled migration. The failure path thaws what its
`sourceFrozen` claims, unless the runtime's record says that the workload is running; so a freeze
that neither the flag nor the record shows is settled over. -/

namespace Shiftgate.Migration

open Library

def Stage.late (stage : Stage) : Bool := (frozenStageRank stage).isSome || stage = .completed

def Instr.entersLate : Instr → Bool
  | .transition stage => stage.late
  | _ => true

def Control.quiet : Control → Bool
  | .running .. | .undone .. | .noting .. | .handling .. | .recovering _ => false
  | _ => true

namespace Source

variable {s t : Source} {e : Event} {i : Instr} {rest : List Instr} {f : Flags} {h : Handling}

def pausing (s : Source) : Bool :=
  match s.control with
  | .running (.checkpoint .put :: _) _ => true
  | _ => false

def probing (s : Source) : Bool :=
  match s.control with
  | .recovering _ => true
  | _ => false

/-- The runtime's record does not say RUNNING, the freeze fact does not deny the freeze, and a live
migration without a fact is past the stages before its freeze. -/
def FreezeSeen (s : Source) : Prop :=
  s.status ≠ .running ∧ s.fact ≠ some false ∧
    (s.fact = none → s.mode = .live → s.stage ≠ .snapshot ∧ s.stage ≠ .prepare)

/-- A live checkpoint records the workload that it has stopped; a restart sees the freeze; and a
restart in CLEANUP, which cannot be rolled back, reaches the destination and learns that it has
committed. -/
def FreezeShown (s : Source) : Event → Prop
  | .step ok _ => s.mode = .live → s.pausing → s.process = .stopped → ok = true
  | .reply r _ => s.probing → s.stage = .cleanup → s.process = .stopped → r = .session .committed
  | .recover client => s.process = .stopped → s.stage.terminal = false →
      s.FreezeSeen ∧ (s.stage = .cleanup → client = true)
  | _ => True

structure InRun (s : Source) (rest : List Instr) (f : Flags) : Prop where
  script : rest <:+ run s.mode
  stage : s.stage ≠ .cleanup
  late : .transition .snapshot ∉ rest → s.stage.late
  unfrozen : .checkpoint .stop ∈ rest → s.process ≠ .stopped
  status : .checkpoint .stop ∈ rest → s.process ≠ .dead → s.status = .running
  wasRunning : .readWorkload ∉ rest → s.process ≠ .dead → f.wasRunning
  claimed : s.mode = .cold → .claimFreeze ∉ rest → s.process ≠ .dead → f.sourceFrozen
  confirmed : .confirmFreeze ∉ rest → s.process ≠ .dead → f.sourceFrozen
  recorded : .checkpoint .put ∉ rest → s.process = .stopped → s.status ≠ .running

/-- Until the thaw a frozen workload is the failure path's to thaw, and after it there was none. -/
def Thawing (s : Source) (f : Flags) (h : Handling) : HandlerPoint → Prop
  | .entry => f.sourceFrozen ∧ s.status ≠ .running ∧ s.stage ≠ .cleanup
  | .mark _ | .rollback _ | .probe | .thaw => f.sourceFrozen ∧ s.status ≠ .running
  | .thawed => False
  | .preserve | .settle => h.safe = false

def Placed (s : Source) : Prop :=
  match s.control with
  | .running rest f => s.InRun rest f
  | .undone .. | .noting .. => s.process ≠ .stopped
  | .handling point f h => s.process = .stopped → s.Thawing f h point
  | .recovering f => s.process = .stopped → f.sourceFrozen ∧ s.status ≠ .running
  | _ => True

structure Freeze (s : Source) : Prop where
  recorded : s.recorded = false → s.process = .dead
  late : s.process = .stopped → s.stage.late
  placed : s.Placed

theorem Freeze.inRun (hs : s.Freeze) (hc : s.control = .running rest f) : s.InRun rest f := by
  have := hs.placed
  rwa [Placed, hc] at this

variable {point : HandlerPoint} {f' : Flags} {mode : Mode} {c : Bool}

theorem Freeze.thawing (hs : s.Freeze) (hc : s.control = .handling point f h)
    (hp : s.process = .stopped) : s.Thawing f h point := by
  have := hs.placed
  rw [Placed, hc] at this
  exact this hp

theorem Freeze.ofUnfrozen (hrec : s.recorded = false → s.process = .dead)
    (hp : s.process ≠ .stopped) (hc : ∀ rest f, s.control ≠ .running rest f) : s.Freeze where
  recorded := hrec
  late hp' := absurd hp' hp
  placed := by
    unfold Placed
    split
    · exact absurd ‹_› (hc _ _)
    · exact hp
    · exact hp
    · exact fun hp' => absurd hp' hp
    · exact fun hp' => absurd hp' hp
    · trivial

theorem InRun.late_stop (hs : s.InRun rest f) (hstop : .checkpoint .stop ∉ rest) :
    s.stage.late := by
  refine hs.late ?_
  have := at_place (P := fun place => .checkpoint .stop ∉ place → .transition .snapshot ∉ place)
    (by cases s.mode <;> decide) hs.script
  exact this hstop

theorem InRun.shown (hs : s.InRun (i :: rest) f) (hi : i.fails s.mode)
    (hput : i = .checkpoint .put → s.process ≠ .stopped) (hp : s.process = .stopped) :
    f.sourceFrozen ∧ s.status ≠ .running := by
  have halive : s.process ≠ .dead := by simp [hp]
  have hstop : .checkpoint .stop ∉ i :: rest := fun hm => hs.unfrozen hm hp
  have := at_place (P := fun place => ∀ i ∈ place.head?, i.fails s.mode → i ≠ .checkpoint .put →
      .checkpoint .stop ∉ place → .checkpoint .put ∉ place ∧
        (s.mode = .cold ∧ .claimFreeze ∉ place ∨ .confirmFreeze ∉ place))
    (by cases s.mode <;> decide) hs.script i rfl hi (fun h => hput h hp) hstop
  obtain ⟨hnoput, hclaim⟩ := this
  refine ⟨?_, hs.recorded hnoput hp⟩
  rcases hclaim with ⟨hcold, hm⟩ | hm
  · exact hs.claimed hcold hm halive
  · exact hs.confirmed hm halive

theorem InRun.flags (hs : s.InRun (i :: rest) f) (fact : Option Bool) (control : Control)
    (hsnap : i ≠ .transition .snapshot) (hput : i ≠ .checkpoint .put)
    (hwas : s.process ≠ .dead → f.wasRunning ∨ i = .readWorkload → f'.wasRunning)
    (hclaim : s.process ≠ .dead → f.sourceFrozen ∨ i.claims → f'.sourceFrozen) :
    InRun { s with fact, control } rest f' where
  script := suffix_tail hs.script
  stage := hs.stage
  late hm := hs.late (by simp [hsnap.symm, hm])
  unfrozen hm := hs.unfrozen (by simp [hm])
  status hm := hs.status (by simp [hm])
  wasRunning hm hp := by
    refine hwas hp ?_
    by_cases hi : i = .readWorkload
    · exact .inr hi
    · exact .inl (hs.wasRunning (by simp [Ne.symm hi, hm]) hp)
  claimed hcold hm hp := by
    refine hclaim hp ?_
    by_cases hi : i = .claimFreeze
    · exact .inr (by simp [hi, Instr.claims])
    · exact .inl (hs.claimed hcold (by simp [Ne.symm hi, hm]) hp)
  confirmed hm hp := by
    refine hclaim hp ?_
    by_cases hi : i = .confirmFreeze
    · exact .inr (by simp [hi, Instr.claims])
    · exact .inl (hs.confirmed (by simp [Ne.symm hi, hm]) hp)
  recorded hm := hs.recorded (by simp [hput.symm, hm])

theorem InRun.pass (hs : s.InRun (i :: rest) f) (fact : Option Bool) (control : Control)
    (hi : i.passes ∨ i.notes) : InRun { s with fact, control } rest f := by
  refine hs.flags fact control ?_ ?_ (fun _ hw => ?_) fun _ hw => ?_
  · rintro rfl
    revert hi
    decide
  · rintro rfl
    revert hi
    decide
  · refine hw.resolve_right ?_
    rintro rfl
    revert hi
    decide
  · refine hw.resolve_right fun hc => ?_
    revert hi hc
    cases i with
    | checkpoint step => cases step <;> decide
    | _ => simp [Instr.passes, Instr.notes, Instr.claims]

theorem InRun.read (hs : s.InRun (.readWorkload :: rest) f) (control : Control) :
    InRun { s with control } rest { f with wasRunning := s.status = .running } := by
  have hstop := at_place (P := fun place => place.head? = some .readWorkload →
    .checkpoint .stop ∈ place) (by cases s.mode <;> decide) hs.script rfl
  refine hs.flags s.fact control nofun nofun (fun hp _ => ?_) fun _ hw => ?_
  · exact decide_eq_true (hs.status hstop hp)
  · exact hw.resolve_right nofun

theorem InRun.claim (hs : s.InRun (i :: rest) f) (control : Control) (hi : i.claims) :
    InRun { s with control } rest { f with sourceFrozen := f.wasRunning } := by
  have hread := at_place (P := fun place => ∀ i ∈ place.head?, i.claims →
    .readWorkload ∉ place) (by cases s.mode <;> decide) hs.script i rfl hi
  refine hs.flags s.fact control ?_ ?_ (fun _ hw => ?_) fun hp _ => hs.wasRunning hread hp
  · rintro rfl
    cases hi
  · rintro rfl
    cases hi
  · refine hw.resolve_right ?_
    rintro rfl
    cases hi

theorem InRun.replied {call : Call} (hs : s.InRun (.call call :: rest) f) (control : Control) :
    InRun { s with control } rest (f.after call) := by
  refine hs.flags s.fact control nofun nofun (fun _ hw => ?_) fun _ hw => ?_
  · have := hw.resolve_right nofun
    cases call <;> exact this
  · have := hw.resolve_right nofun
    cases call <;> exact this

theorem InRun.transition {stage : Stage} (hs : s.InRun (.transition stage :: rest) f)
    (control : Control) : InRun { s with stage, control } rest f where
  script := suffix_tail hs.script
  stage := by
    have := at_place (P := fun place => .transition .cleanup ∉ place)
      (by cases s.mode <;> decide) hs.script
    rintro rfl
    simp at this
  late hm := by
    have := at_instr (P := fun i rest => .transition .snapshot ∉ rest → i.entersLate)
      (by cases s.mode <;> decide) hs.script
    exact this hm
  unfrozen hm := hs.unfrozen (by simp [hm])
  status hm := hs.status (by simp [hm])
  wasRunning hm := hs.wasRunning (by simp [hm])
  claimed hcold hm := hs.claimed hcold (by simp [hm])
  confirmed hm := hs.confirmed (by simp [hm])
  recorded hm := hs.recorded (by simp [hm])

theorem InRun.exit (hs : s.InRun rest f) (recorded : Bool) (status : WorkloadStatus) :
    InRun { s with process := .dead, recorded, status } rest f where
  script := hs.script
  stage := hs.stage
  late := hs.late
  unfrozen _ := nofun
  status _ hp := absurd rfl hp
  wasRunning _ hp := absurd rfl hp
  claimed _ _ hp := absurd rfl hp
  confirmed _ hp := absurd rfl hp
  recorded _ := nofun

theorem stop_place (hr : .checkpoint .stop :: rest <:+ run mode) :
    .checkpoint .stop ∉ rest ∧ .checkpoint .put ∈ rest :=
  at_instr (P := fun i rest => i = .checkpoint .stop →
    .checkpoint .stop ∉ rest ∧ .checkpoint .put ∈ rest) (by cases mode <;> decide) hr rfl

theorem InRun.freeze (hs : s.InRun (.checkpoint .stop :: rest) f) (control : Control)
    (ha : s.alive) : InRun { s with process := .stopped, froze := true, control } rest f := by
  have hlive : s.process ≠ .dead := by simpa using (Bool.and_eq_true_iff.mp ha).2
  obtain ⟨hstop, hput⟩ := stop_place hs.script
  exact
    { script := suffix_tail hs.script
      stage := hs.stage
      late := fun hm => hs.late (by simp [hm])
      unfrozen := fun hm => absurd hm hstop
      status := fun hm => absurd hm hstop
      wasRunning := fun hm _ => hs.wasRunning (by simp [hm]) hlive
      claimed := fun hcold hm _ => hs.claimed hcold (by simp [hm]) hlive
      confirmed := fun hm _ => hs.confirmed (by simp [hm]) hlive
      recorded := fun hm => absurd hput hm }

theorem InRun.record {step : CheckpointStep} {status : WorkloadStatus}
    (hs : s.InRun (.checkpoint step :: rest) f) (control : Control)
    (hrec : step.records = some status) : InRun { s with status, control } rest f := by
  have hstop : .checkpoint .stop ∉ rest := by
    refine at_instr (P := fun i rest => i = .checkpoint .put ∨ i = .checkpoint .mark →
      .checkpoint .stop ∉ rest) (by cases s.mode <;> decide) hs.script ?_
    cases step <;> cases hrec <;> decide
  have hne : status ≠ .running := by
    cases step <;> cases hrec <;> decide
  exact
    { script := suffix_tail hs.script
      stage := hs.stage
      late := fun hm => hs.late (by simp [hm])
      unfrozen := fun hm => hs.unfrozen (by simp [hm])
      status := fun hm => absurd hm hstop
      wasRunning := fun hm => hs.wasRunning (by simp [hm])
      claimed := fun hcold hm => hs.claimed hcold (by simp [hm])
      confirmed := fun hm => hs.confirmed (by simp [hm])
      recorded := fun _ _ => hne }

structure Whole (s : Source) : Prop where
  recorded : s.recorded = false → s.process = .dead
  late : s.process = .stopped → s.stage.late

theorem Freeze.whole (hs : s.Freeze) : s.Whole := ⟨hs.recorded, hs.late⟩

theorem Whole.handle (hw : s.Whole) (ht : s.process = .stopped → s.Thawing f h point) :
    (s.handle point f h).Freeze :=
  ⟨hw.recorded, hw.late, ht⟩

theorem Whole.quiet (hw : s.Whole) (hc : s.control.quiet) : s.Freeze := by
  refine ⟨hw.recorded, hw.late, ?_⟩
  revert hc
  unfold Placed
  cases s.control <;> simp [Control.quiet]

theorem Whole.goto {control : Control} (hw : s.Whole) (hc : control.quiet) :
    (s.goto control).Freeze :=
  Whole.quiet ⟨hw.recorded, hw.late⟩ hc

theorem Whole.beginRollback (hw : s.Whole)
    (ht : s.process = .stopped → f.sourceFrozen ∧ s.status ≠ .running) :
    (s.beginRollback f h).Freeze := by
  unfold Source.beginRollback Source.unconfirmed
  split_ifs <;> exact hw.handle ht

theorem Freeze.unconfirmed {left : Nat} (hs : s.Freeze)
    (hc : s.control = .handling (.rollback left) f h) : (s.unconfirmed f h).Freeze := by
  have ht := hs.thawing hc
  unfold Source.unconfirmed
  split_ifs <;> exact hs.whole.handle ht

theorem Freeze.thaw (hs : s.Freeze) (hc : s.control = .handling .thaw f h) :
    (s.thaw f h).Freeze := by
  have hshown := hs.thawing hc
  unfold Source.thaw
  split_ifs with hsafe hrun hrec hdead
  · exact hs.whole.handle fun hp => absurd hrun (hshown hp).2
  · refine hs.whole.handle fun hp => ?_
    rw [hs.recorded hrec] at hp
    cases hp
  · refine hs.whole.handle fun hp => ?_
    rw [hdead] at hp
    cases hp
  · refine Whole.handle ⟨fun hr => ?_, nofun⟩ nofun
    exact absurd hr hrec
  · refine hs.whole.handle fun hp => ?_
    exact (Bool.not_eq_true _).mp fun hh => hsafe ⟨(hshown hp).1, hh⟩

theorem FreezeSeen.owns (hs : s.FreezeSeen) (hlate : s.stage.late) (ht : s.stage.terminal = false) :
    recoveryOwnsFreeze s.mode s.stage s.fact = true := by
  obtain ⟨-, hfact, hlive⟩ := hs
  rcases hf : s.fact with _ | owns
  · have hmode := hlive hf
    revert hlate ht hmode
    cases s.mode <;> cases s.stage <;> decide
  · cases owns
    · exact absurd hf hfact
    · rfl

theorem reconcile_of_stopped (hp : s.process = .stopped) : s.reconcile = s :=
  if_neg (by simp [hp])

theorem reconcile_process : s.reconcile.process = s.process := by
  unfold reconcile
  split_ifs <;> rfl

theorem Freeze.reconciled (hs : s.Freeze) (hr : s.reconcile.recorded = false) :
    s.reconcile.process = .dead := by
  rw [reconcile_process]
  unfold reconcile at hr
  split_ifs at hr with hd
  · exact hd
  · exact hs.recorded hr

theorem Freeze.recover {client : Bool} (hs : s.Freeze) (hk : s.FreezeShown (.recover client)) :
    (s.recover client).Freeze := by
  by_cases hp : s.process = .stopped
  · simp only [Source.recover, reconcile_of_stopped hp]
    split_ifs with ht hclient
    · exact hs.whole.goto rfl
    all_goals
      obtain ⟨hseen, hcleanup⟩ := hk hp (by simpa using ht)
      have howns := hseen.owns (hs.late hp) (by simpa using ht)
    · exact ⟨hs.recorded, hs.late, fun _ => ⟨howns, hseen.1⟩⟩
    · exact hs.whole.handle fun _ => ⟨howns, hseen.1, fun hst => hclient (hcleanup hst)⟩
  · have hunfrozen : s.reconcile.process ≠ .stopped := by rwa [reconcile_process]
    unfold Source.recover
    split_ifs <;> exact .ofUnfrozen hs.reconciled hunfrozen nofun

theorem InRun.toFreeze (hrec : s.recorded = false → s.process = .dead)
    (hc : s.control = .running rest f) (hr : s.InRun rest f) : s.Freeze where
  recorded := hrec
  late hp := hr.late_stop fun hm => hr.unfrozen hm hp
  placed := by rwa [Placed, hc]

theorem Freeze.fails (hs : s.Freeze) (hc : s.control = .running (i :: rest) f) (hi : i.fails s.mode)
    (hput : i = .checkpoint .put → s.process ≠ .stopped) : (s.fail f c).Freeze := by
  have hr := hs.inRun hc
  refine hs.whole.handle fun hp => ?_
  obtain ⟨hclaimed, hstatus⟩ := hr.shown hi hput hp
  exact ⟨hclaimed, hstatus, hr.stage⟩

theorem afterUndo_freeze (hrec : s.recorded = false → s.process = .dead)
    (hp : s.process ≠ .stopped) : (s.afterUndo f c).Freeze := by
  unfold afterUndo
  split <;> exact .ofUnfrozen hrec hp nofun

theorem alive_recorded (ha : s.alive) : s.recorded = true := (Bool.and_eq_true_iff.mp ha).1

theorem afterStop_quiet (site : StopSite) (stopped : Bool) : (afterStop site stopped).quiet := by
  cases site <;> rfl

theorem Freeze.recovered {r : Reply} (hs : s.Freeze) (hc : s.control = .recovering f)
    (hk : s.FreezeShown (.reply r c)) (hr : r ≠ .session .committed)
    (hf : f'.sourceFrozen = f.sourceFrozen) : (s.fail f' false).Freeze := by
  have hplaced := hs.placed
  rw [Placed, hc] at hplaced
  refine hs.whole.handle fun hp => ?_
  obtain ⟨hclaimed, hstatus⟩ := hplaced hp
  exact ⟨hf ▸ hclaimed, hstatus, fun hst => hr (hk (by simp [probing, hc]) hst hp)⟩

theorem Freeze.move (hs : s.Freeze) (hk : s.FreezeShown e) (hm : s.Move e t) : t.Freeze := by
  cases hm with
  | transition hc => exact ((hs.inRun hc).transition _).toFreeze hs.recorded rfl
  | pass hc hi => exact ((hs.inRun hc).pass _ _ (.inl hi)).toFreeze hs.recorded rfl
  | note fact hc hi => exact ((hs.inRun hc).pass _ _ (.inr hi)).toFreeze hs.recorded rfl
  | read hc => exact ((hs.inRun hc).read _).toFreeze hs.recorded rfl
  | claim hc hi => exact ((hs.inRun hc).claim _ hi).toFreeze hs.recorded rfl
  | freeze hc ha =>
    refine ((hs.inRun hc).freeze _ ha).toFreeze (fun hr => ?_) rfl
    exact absurd (alive_recorded ha) (by simpa using hr)
  | record hc hrec => exact ((hs.inRun hc).record _ hrec).toFreeze hs.recorded rfl
  | paused hc =>
    -- the script of a running workload has no such instruction
    have := at_place (P := fun place => .checkpointPaused ∉ place) (by cases s.mode <;> decide)
      (hs.inRun hc).script
    simp at this
  | replied hc => exact ((hs.inRun hc).replied _).toFreeze hs.recorded rfl
  | fails hc hi hput =>
    refine hs.fails hc hi fun hi' hp => ?_
    -- a cold checkpoint undoes a lost record, and a live one is known to have written it
    subst hi'
    obtain ⟨c', rfl⟩ := hput rfl
    cases hmode : s.mode with
    | cold => simp [Instr.fails, hmode, undoes] at hi
    | live => exact absurd (hk hmode (by simp [pausing, hc]) hp) (by decide)
  | undo | ended | unsettled | committed | force | unforced | crash => exact hs.whole.goto rfl
  | cleanup hc hstage =>
    refine Whole.quiet ⟨hs.recorded, fun hp => ?_⟩ rfl
    rcases hstage with rfl | rfl
    · exact hs.late hp
    · rfl
  | resume hc ha =>
    refine .ofUnfrozen (fun hr => ?_) (by simp) (by simp)
    exact absurd (alive_recorded ha) (by simpa using hr)
  | unresumed hc ha =>
    refine afterUndo_freeze hs.recorded fun hp => ?_
    have hr : s.recorded = false := by simpa [alive, hp] using ha
    simp [hs.recorded hr] at hp
  | undone hc =>
    have := hs.placed
    rw [Placed, hc] at this
    exact afterUndo_freeze hs.recorded this
  | noted fact hc =>
    have := hs.placed
    rw [Placed, hc] at this
    exact .ofUnfrozen hs.recorded this (by simp [fail, goto])
  | settleCommitted =>
    exact Whole.quiet ⟨hs.recorded, hs.late⟩ rfl
  | mark hc =>
    refine Whole.handle ⟨hs.recorded, hs.late⟩ fun hp => ?_
    have ht := hs.thawing hc hp
    exact ⟨ht.1, ht.2.1⟩
  | remark hc | confirmed hc | retry hc | probed hc => exact hs.whole.handle (hs.thawing hc :)
  | rollBack hc hpoint hstage =>
    refine Whole.beginRollback ⟨hs.recorded, fun hp => ?_⟩ fun hp => ?_
    · rcases hstage with rfl | rfl
      · exact hs.late hp
      · rfl
    · have ht := hs.thawing hc hp
      rcases hpoint with rfl | ⟨left, rfl⟩
      · exact ⟨ht.1, ht.2.1⟩
      · exact ht
  | preFail hc hstart =>
    -- a frozen workload is behind neither of the stages that cannot be rolled back
    have hp : s.process ≠ .stopped := fun hp => by
      rcases hstart with hst | hst
      · have := hs.late hp
        rw [hst] at this
        cases this
      · exact (hs.thawing hc hp).2.2 hst
    exact Whole.beginRollback ⟨hs.recorded, fun hp' => absurd hp' hp⟩ fun hp' => absurd hp' hp
  | unconfirmed hc => exact hs.unconfirmed hc
  | thaw hc => exact hs.thaw hc
  | thawed hc =>
    exact Whole.handle ⟨hs.recorded, hs.late⟩ fun hp => (hs.thawing hc hp).elim
  | preserve hc => exact Whole.handle ⟨hs.recorded, hs.late⟩ (hs.thawing hc)
  | settle hc hsafe =>
    refine .ofUnfrozen hs.recorded (fun hp => ?_) (by simp)
    have : _ = false := hs.thawing hc hp
    simp [hsafe] at this
  | nothing hc hr =>
    refine hs.recovered hc hk ?_ rfl
    rintro rfl
    cases hr
  | present hc hr => exact hs.recovered hc hk hr rfl
  | stopped => exact Whole.quiet ⟨fun _ => rfl, by simp⟩ (afterStop_quiet _ _)
  | stopFails hc hp hn =>
    refine Whole.quiet ⟨fun hr => ?_, fun hst => ?_⟩ ?_
    · rcases hp with rfl | rfl | ⟨-, ha, -⟩
      · exact hs.recorded hr
      · rfl
      · exact absurd (alive_recorded ha) (by simpa using hr)
    · rcases hp with rfl | rfl | ⟨rfl, -⟩
      · exact hs.late hst
      · cases hst
      · cases hst
    · rcases hn with rfl | rfl
      · exact afterStop_quiet _ _
      · rfl
  | preserved => exact Whole.quiet ⟨hs.recorded, hs.late⟩ rfl
  | completed | forced => exact Whole.quiet ⟨hs.recorded, fun _ => rfl⟩ rfl
  | exit =>
    by_cases hrun : ∃ rest f, s.control = .running rest f
    · obtain ⟨rest, f, hc⟩ := hrun
      exact ((hs.inRun hc).exit _ _).toFreeze (fun _ => rfl) hc
    · exact .ofUnfrozen (fun _ => rfl) (by simp) fun rest f hc => hrun ⟨rest, f, hc⟩
  | recover => exact hs.recover hk

theorem admitted_freeze (mode : Mode) : (admitted mode).Freeze := by
  refine InRun.toFreeze nofun rfl ⟨List.suffix_refl _, nofun, fun hm => ?_, fun _ => nofun,
    fun _ _ => rfl, fun hm => ?_, fun hcold hm => ?_, fun hm => ?_, fun _ => nofun⟩
  · exact absurd (by cases mode <;> decide) hm
  · exact absurd (by cases mode <;> decide) hm
  · cases hcold
    exact absurd (by decide) hm
  · exact absurd (by cases mode <;> decide) hm

theorem Freeze.run {events : List Event} (hm : Meets Source.step FreezeShown (admitted mode) events)
    (hr : exec Source.step (admitted mode) events = some s) : s.Freeze :=
  exec_invariant Freeze (fun _ _ _ hs hk hstep => hs.move hk (step_move hstep))
    (admitted_freeze mode) hm hr

/-- Whatever the writes, the answers and the restarts, if every step keeps the freeze in sight then
no workload is left stopped behind a record that has ended without completing. -/
theorem settled_source_not_frozen {mode : Mode} {events : List Event} {s : Source}
    (hm : Meets Source.step FreezeShown (admitted mode) events)
    (hr : exec Source.step (admitted mode) events = some s)
    (hterminal : s.stage.terminal) (hcompleted : s.stage ≠ .completed) :
    s.process = .running ∨ s.process = .dead := by
  have hs := Freeze.run hm hr
  cases hp : s.process with
  | running => exact .inl rfl
  | dead => exact .inr rfl
  | stopped =>
    have hlate := hs.late hp
    revert hlate hterminal hcompleted
    cases s.stage <;> decide

instance : Decidable s.FreezeSeen := inferInstanceAs (Decidable (_ ∧ _ ∧ _))

instance : ∀ e, Decidable (s.FreezeShown e)
  | .step .. => inferInstanceAs (Decidable (_ → _ → _ → _))
  | .reply .. => inferInstanceAs (Decidable (_ → _ → _ → _))
  | .recover _ => inferInstanceAs (Decidable (_ → _ → _ ∧ _))
  | .stop _ | .exit _ | .crash => isTrue trivial

def frozenRun (owned : Bool) : List Event :=
  [.step true false, .step true false, .step owned false] ++ List.replicate 12 (.step true false)

def restart (steps : Nat) : List Event :=
  [.crash, .recover true, .reply .notFound false] ++ List.replicate steps (.step true false)

theorem frozenRun_thawed : ∃ s,
    exec Source.step (admitted .cold) (frozenRun true ++ restart 6) = some s ∧ s.froze ∧
      s.stage = .rolledBack ∧ (s.process = .running ∨ s.process = .dead) := by
  obtain ⟨s, hs, hfroze, hstage⟩ : ∃ s, exec Source.step (admitted .cold)
      (frozenRun true ++ restart 6) = some s ∧ s.froze ∧ s.stage = .rolledBack := by
    decide
  exact ⟨s, hs, hfroze, hstage, settled_source_not_frozen (by decide) hs
    (by rw [hstage]; rfl) (by simp [hstage])⟩

/-- The freeze ownership cannot be written, and the note of the downtime denies it: the restart
settles the record over a stopped workload. -/
theorem unowned_freeze_settled : ∃ s,
    exec Source.step (admitted .cold) (frozenRun false ++ restart 5) = some s ∧ s.froze ∧
      s.stage = .rolledBack ∧ s.process = .stopped := by
  refine ⟨(exec Source.step (admitted .cold) (frozenRun false ++ restart 5)).get
    (by decide), ?_⟩
  decide

end Source

end Shiftgate.Migration
