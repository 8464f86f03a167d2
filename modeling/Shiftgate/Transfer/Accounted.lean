import Shiftgate.Transfer.SettledRuns

/-! The processes of restores. Beside the records, the process that the runtime knows and the trees
it does not know yet are accounted for, by a request or by the session that keeps the restore. -/

namespace Shiftgate.Transfer

open Library Checkpoint List

variable {d d' : Destination} {i : Nat} {task : Task} {p p' : Point} {s s' : Session} {a : Action}
  {r r' : Restores} {id k : Nat}

namespace Point

def holds : Point → Option Nat
  | .preparing (.adopted id) | .preparing (.running id) | .prepared id => some id
  | .rolling .prepare (.finish _) | .rolling .undo (.finish _) => none
  | .rolling .prepare p | .rolling .undo p => some p.id
  | _ => none

def stopped : Point → Option Nat
  | .rolling _ (.finish id) => some id
  | .rolledBack restoreID => restoreID
  | _ => none

def builds : Point → Option Nat
  | .preparing p => PreparePoint.id? p
  | _ => none

theorem owns_of_holds (h : p.holds = some id) : p.owns = some id := by
  cases p with
  | preparing q => cases q <;> first | exact h | cases h
  | prepared => exact h
  | rolling caller q => cases caller <;> cases q <;> first | exact h | cases h
  | _ => cases h

theorem owns_of_builds (h : p.builds = some id) : p.owns = some id := by
  cases p <;> first | exact h | cases h

theorem tornDown_of_stopped (h : p.stopped = some id) : p.tornDown = some id := by
  cases p with
  | rolling caller q => cases q <;> first | exact h | cases h
  | rolledBack => exact h
  | _ => cases h

theorem not_builds_of_stopped (h : p.stopped = some id) : p.builds = none := by
  cases p <;> first | rfl | cases h

end Point

open Point

def Keeps (d : Destination) (id : Nat) : Prop :=
  ∃ s, d.session = some s ∧ s.restoreID = some id ∧ s.state.keepsRestore = true

structure Accounted (d : Destination) : Prop where
  held : ∀ id, d.restores.process = some id →
    (∃ t ∈ d.tasks, t.point.holds = some id) ∨ Keeps d id
  closed : ∀ id : Nat, d.restores.records[id]? = some .rolledBack → d.restores.process ≠ some id
  stopped : ∀ t ∈ d.tasks, ∀ id, t.point.stopped = some id → d.restores.process ≠ some id
  building : ∀ t ∈ d.tasks, ∀ id, t.point.builds = some id →
    d.restores.records[id]? ≠ some .rolledBack
  trees : ∀ id ∈ d.restores.orphans, ∃ t ∈ d.tasks, t.point = .preparing (.tree id)
  once : d.restores.orphans.Nodup

theorem Accounted.noRestore (h : Accounted d) (hnone : NoRestore d) :
    (∀ id, d.restores.process = some id → Keeps d id) ∧ d.restores.orphans = [] := by
  refine ⟨fun id hid => ?_, eq_nil_iff_forall_not_mem.mpr fun id hid => ?_⟩
  · rcases h.held id hid with ⟨t, ht, hholds⟩ | hs
    · have := hnone t ht
      simp [restoring_of_owns (owns_of_holds hholds)] at this
    · exact hs
  · obtain ⟨t, ht, hpoint⟩ := h.trees id hid
    have := hnone t ht
    rw [hpoint] at this
    cases this

theorem Accounted.nothing_runs (h : Accounted d) (hon : Honest d) (hs : d.session = some s)
    (hsettled : s.state.settled = true) : d.restores.process = none ∧ d.restores.orphans = [] := by
  obtain ⟨hkept, hnone⟩ := h.noRestore (hon.quiet s hs hsettled)
  refine ⟨?_, hnone⟩
  cases hp : d.restores.process with
  | none => rfl
  | some id =>
    obtain ⟨s', hs', -, hkeeps⟩ := hkept id hp
    cases hs'.symm.trans hs
    cases hstate : s.state <;> simp_all [SessionState.settled, SessionState.keepsRestore]

structure ProcessStep (r : Restores) (p : Point) (r' : Restores) (p' : Point) : Prop where
  closes : ∀ k : Nat, r'.records[k]? = some .rolledBack →
    r.records[k]? = some .rolledBack ∨ p.stopped = some k
  raises : ∀ k, r'.process = some k → r.process = some k ∨ p.builds = some k
  stopped : ∀ k, p'.stopped = some k → r'.process ≠ some k
  builds : ∀ k, p'.builds = some k → p.builds = some k ∨ r.records[k]? = none
  trees : ∀ k ∈ r'.orphans, p' = .preparing (.tree k) ∨ k ∈ r.orphans ∧ p ≠ .preparing (.tree k)
  once : r'.orphans.Nodup

/-- The process is still the request's own, has been handed over to the session, or is somebody
else's. -/
theorem Accounted.request (h : Accounted d) (hon : Honest d) (hi : d.tasks[i]? = some task)
    (hstep : ProcessStep d.restores task.point d'.restores p')
    (htasks : d'.tasks = (d.setPoint i task p').tasks)
    (hheld : ∀ k, d'.restores.process = some k → p'.holds = some k ∨ Keeps d' k ∨
      d.restores.process = some k ∧ task.point.holds ≠ some k)
    (hkeeps : ∀ k, d'.restores.process = some k → Keeps d k → Keeps d' k) : Accounted d' := by
  have htask : task ∈ d.tasks := mem_of_getElem? hi
  constructor
  case held =>
    intro k hk
    rw [htasks]
    rcases hheld k hk with hp | hs | ⟨hprocess, hne⟩
    · exact .inl ⟨_, setPoint_mem_self hi, hp⟩
    · exact .inr hs
    · rcases h.held k hprocess with ⟨t, ht, hholds⟩ | hs
      · refine .inl ⟨t, setPoint_mem_of_ne hi ht ?_, hholds⟩
        rintro rfl
        exact hne hholds
      · exact .inr (hkeeps k hk hs)
  case closed =>
    intro k hrolled hprocess
    rcases hstep.closes k hrolled with hrolled | hstopped
    · rcases hstep.raises k hprocess with hprocess | hbuilds
      · exact h.closed k hrolled hprocess
      · exact h.building task htask k hbuilds hrolled
    · rcases hstep.raises k hprocess with hprocess | hbuilds
      · exact h.stopped task htask k hstopped hprocess
      · simp [not_builds_of_stopped hstopped] at hbuilds
  case stopped =>
    intro t ht k hk hprocess
    rw [htasks] at ht
    rcases mem_setPoint ht with rfl | ⟨hmem, j, hji, hj⟩
    · exact hstep.stopped k hk hprocess
    · rcases hstep.raises k hprocess with hprocess | hbuilds
      · exact h.stopped t hmem k hk hprocess
      · exact hji (hon.exclusive i j task t k hi hj (owns_of_builds hbuilds)
          (mentions_of_tornDown (tornDown_of_stopped hk))).symm
  case building =>
    intro t ht k hk hrolled
    rw [htasks] at ht
    rcases mem_setPoint ht with rfl | ⟨hmem, j, hji, hj⟩
    · rcases hstep.closes k hrolled with hrolled | hstopped
      · rcases hstep.builds k hk with hbuilds | hnone
        · exact h.building task htask k hbuilds hrolled
        · simp [hnone] at hrolled
      · rcases hstep.builds k hk with hbuilds | hnone
        · simp [not_builds_of_stopped hstopped] at hbuilds
        · have hlt := hon.bounded task htask k
            (mentions_of_tornDown (tornDown_of_stopped hstopped))
          rw [getElem?_eq_getElem hlt] at hnone
          cases hnone
    · rcases hstep.closes k hrolled with hrolled | hstopped
      · exact h.building t hmem k hk hrolled
      · exact hji (hon.exclusive j i t task k hj hi (owns_of_builds hk)
          (mentions_of_tornDown (tornDown_of_stopped hstopped)))
  case trees =>
    intro k hk
    rw [htasks]
    rcases hstep.trees k hk with hp | ⟨hk, hne⟩
    · exact ⟨_, setPoint_mem_self hi, hp⟩
    · obtain ⟨t, ht, hpoint⟩ := h.trees k hk
      refine ⟨t, setPoint_mem_of_ne hi ht ?_, hpoint⟩
      rintro rfl
      exact hne hpoint
  case once => exact hstep.once

theorem ProcessStep.quiet (hprocess : r'.process = r.process) (horphans : r'.orphans = r.orphans)
    (hclosed : ∀ k : Nat, r'.records[k]? = some .rolledBack →
      r.records[k]? = some .rolledBack ∨ p.stopped = some k)
    (hstopped : ∀ k, p'.stopped = some k → r.process ≠ some k)
    (hbuilds : ∀ k, p'.builds = some k → p.builds = some k ∨ r.records[k]? = none)
    (htree : ∀ k, p ≠ .preparing (.tree k)) (honce : r.orphans.Nodup) :
    ProcessStep r p r' p' where
  closes := hclosed
  raises _ hk := .inl (hprocess ▸ hk)
  stopped k hk := hprocess ▸ hstopped k hk
  builds := hbuilds
  trees k hk := .inr ⟨horphans ▸ hk, htree k⟩
  once := horphans ▸ honce

variable {q : PreparePoint} {ok : Bool} {next : PrepareNext} {caller : RollbackCaller}
  {e : Destination}

theorem prepareStep_processStep (h : prepareStep r ok q = some (r', next)) (honce : r.orphans.Nodup)
    (hnew : ∀ id, q = .switched id → id ∉ r.orphans) :
    ProcessStep r (.preparing q) r' (afterPrepare next) := by
  -- the request writes its record and goes on
  have writes : ∀ {p' id state}, state ≠ RestoreState.rolledBack → stopped p' = none →
      (∀ k, builds p' = some k → PreparePoint.id? q = some k) → (∀ k, q ≠ .tree k) →
      ProcessStep r (.preparing q) (r.setRecord id state) p' :=
    fun hstate hstopped hbuilds htree =>
      .quiet rfl rfl (fun k hk => .inl (getElem?_of_setRecord hstate hk)) (by simp [hstopped])
        (fun k hk => .inl (hbuilds k hk)) (fun k hk => htree k (by cases hk; rfl)) honce
  -- the tree is killed or adopted
  have trees : ∀ id, ∀ k ∈ r.orphans.erase id,
      k ∈ r.orphans ∧ preparing (.tree id) ≠ .preparing (.tree k) := by
    intro id k hk
    refine ⟨mem_of_mem_erase hk, fun heq => ?_⟩
    cases heq
    exact honce.not_mem_erase hk
  cases prepareStep_prepares h with
  | refused => exact .quiet rfl rfl (fun _ => .inl) nofun nofun nofun honce
  | admitted =>
    refine .quiet rfl rfl (fun k hk => .inl (getElem?_of_beginRestore (by simp) hk)) nofun
      (fun k hk => .inr ?_) nofun honce
    cases hk
    simp
  | unwound hid htree =>
    exact .quiet rfl rfl (fun _ => .inl) nofun nofun (fun k hk => htree k (by cases hk; rfl)) honce
  | killed =>
    exact ⟨fun _ => .inl, fun _ => .inl, nofun, nofun, fun k hk => .inr (trees _ k hk),
      honce.erase _⟩
  | switched | running => exact writes (by simp) rfl (fun _ hk => hk) nofun
  | @restored id =>
    refine ⟨fun _ => .inl, fun _ => .inl, nofun, fun _ => .inl, fun k hk => ?_,
      nodup_cons.mpr ⟨hnew id rfl, honce⟩⟩
    rcases mem_cons.mp hk with rfl | hk
    · exact .inl rfl
    · exact .inr ⟨hk, nofun⟩
  | adopted =>
    exact ⟨fun _ => .inl, fun k hk => .inr hk, nofun, fun _ => .inl,
      fun k hk => .inr (trees _ k hk), honce.erase _⟩
  | validated => exact writes (by simp) rfl nofun nofun

theorem prepareStep_holds (h : prepareStep r ok q = some (r', next)) (hk : r'.process = some k) :
    (afterPrepare next).holds = some k ∨
      r.process = some k ∧ (preparing q).holds ≠ some k := by
  cases prepareStep_prepares h with
  | refused | admitted | switched | restored | killed => exact .inr ⟨hk, nofun⟩
  | adopted => exact .inl hk
  | @unwound _ id hid =>
    by_cases hne : id = k
    · subst hne
      exact .inl rfl
    · refine .inr ⟨hk, fun heq => hne ?_⟩
      cases q <;> simp_all [holds, PreparePoint.id?]
  | @running id | @validated id =>
    by_cases hid : id = k
    · subst hid
      exact .inl rfl
    · exact .inr ⟨hk, fun heq => hid (Option.some.inj heq)⟩

theorem resume_stopped (h : (caller.resume id ok).stopped = some k) : k = id := by
  cases caller <;> cases ok <;> simp_all [RollbackCaller.resume, stopped]

theorem resume_builds (caller : RollbackCaller) (id : Nat) (ok : Bool) :
    (caller.resume id ok).builds = none := by
  cases caller <;> cases ok <;> rfl

theorem rollbackStep_processStep (caller : RollbackCaller) (q : RollbackPoint) (ok : Bool)
    (hclosed : ∀ k : Nat, r.records[k]? = some .rolledBack → r.process ≠ some k)
    (hstopped : ∀ k, (rolling caller q).stopped = some k → r.process ≠ some k)
    (honce : r.orphans.Nodup) :
    ProcessStep r (.rolling caller q) (rollbackStep r ok q).1
      (afterRollback caller q.id (rollbackStep r ok q).2) := by
  -- the rollback returns
  have returns : ∀ {r'' ok'}, r''.records = r.records → r''.process = r.process →
      r''.orphans = r.orphans → ok' = false ∨ r.process ≠ some q.id →
      ProcessStep r (.rolling caller q) r'' (caller.resume q.id ok') := by
    intro r'' ok' hrecords hprocess horphans hdown
    refine .quiet hprocess horphans (fun k hk => .inl (hrecords ▸ hk)) (fun k hk => ?_)
      (by simp [resume_builds]) nofun honce
    obtain ⟨rfl, hok⟩ := resume_tornDown (tornDown_of_stopped hk)
    exact hdown.resolve_left (by simp [hok])
  cases q with
  | read id =>
    cases hr : r.records[id]? with
    | none =>
      simp only [rollbackStep, hr]
      exact returns rfl rfl rfl (.inl rfl)
    | some st =>
      have going : ProcessStep r (.rolling caller (.read id)) r (.rolling caller (.begin id)) :=
        .quiet rfl rfl (fun _ => .inl) (by simp [stopped]) (by simp [builds]) (by simp) honce
      cases st with
      | rolledBack =>
        simp only [rollbackStep, hr]
        exact returns rfl rfl rfl (.inr (hclosed id hr))
      | committed =>
        simp only [rollbackStep, hr]
        exact returns rfl rfl rfl (.inl rfl)
      | preparing | filesystemSwitched | processRunning | validated | rollingBack =>
        simp only [rollbackStep, hr]
        exact going
  | begin id =>
    exact .quiet rfl rfl (fun k hk => .inl (getElem?_of_setRecord (by simp) hk))
      (by simp [rollbackStep, afterRollback, stopped])
      (by simp [rollbackStep, afterRollback, builds]) (by simp) honce
  | stop id =>
    have hdown : (rollbackStep r ok (.stop id)).1.process = none := rfl
    exact ⟨fun _ => .inl, by simp [hdown], by simp [hdown],
      by simp [rollbackStep, afterRollback, builds], fun k hk => .inr ⟨hk, by simp⟩, honce⟩
  | finish id =>
    cases ok with
    | false => exact returns rfl rfl rfl (.inl rfl)
    | true =>
      refine .quiet rfl rfl (fun k hk => ?_) (fun k hk => ?_) ?_ (by simp) honce
      · by_cases hid : k = id
        · exact .inr (by rw [hid]; rfl)
        · exact .inl (getElem?_setRecord_ne RestoreState.rolledBack hid ▸ hk)
      · rw [resume_stopped hk]
        exact hstopped id rfl
      · simp [rollbackStep, afterRollback, resume_builds]

theorem rolling_holds (q q' : RollbackPoint) (hid : q'.id = q.id) (hq' : ∀ id, q' ≠ .finish id)
    (h : (rolling caller q).holds = some k) : (rolling caller q').holds = some k := by
  cases caller <;> cases q <;> cases q' <;> simp_all [holds, RollbackPoint.id]

theorem rollbackStep_holds (caller : RollbackCaller) (q : RollbackPoint) (ok : Bool)
    (hclosed : ∀ k : Nat, r.records[k]? = some .rolledBack → r.process ≠ some k)
    (hown : ∀ k, (rolling caller q).owns = some k → k < r.records.length ∧
      r.records[k]? ≠ some .committed)
    (hk : (rollbackStep r ok q).1.process = some k) :
    (afterRollback caller q.id (rollbackStep r ok q).2).holds = some k ∨
      r.process = some k ∧ (rolling caller q).holds ≠ some k := by
  by_cases hholds : (rolling caller q).holds = some k
  swap
  · refine .inr ⟨?_, hholds⟩
    cases q with
    | read id =>
      simp only [rollbackStep] at hk
      split at hk <;> exact hk
    | stop id => cases hk
    | begin id => exact hk
    | finish id => cases ok <;> exact hk
  have howns := owns_of_holds hholds
  obtain ⟨hlt, huncommitted⟩ := hown k howns
  obtain rfl := rolling_owns howns
  cases q with
  | read id =>
    simp only [RollbackPoint.id] at *
    cases hr : r.records[id]? with
    | none =>
      rw [getElem?_eq_getElem hlt] at hr
      cases hr
    | some st =>
      simp only [rollbackStep, hr] at hk ⊢
      cases st with
      | rolledBack => exact absurd hk (hclosed id hr)
      | committed => exact absurd hr huncommitted
      | _ => exact .inl (rolling_holds (.read id) (.begin id) rfl (by simp) hholds)
  | begin id => exact .inl (rolling_holds (.begin id) (.stop id) rfl (by simp) hholds)
  | stop id => cases hk
  | finish id => cases caller <;> cases hholds

theorem commitStep_process (q : CommitPoint) (ok : Bool) :
    (commitStep r ok q).1.process = r.process ∧ (commitStep r ok q).1.orphans = r.orphans := by
  cases q with
  | read id =>
    simp only [commitStep]
    split <;> exact ⟨rfl, rfl⟩
  | write id => cases ok <;> exact ⟨rfl, rfl⟩

theorem commitStep_processStep (q : CommitPoint) (ok : Bool) (honce : r.orphans.Nodup) :
    ProcessStep r (.committing q) (commitStep r ok q).1 (afterCommit (commitStep r ok q).2) := by
  have hpoint : ∀ next, (afterCommit next).stopped = none ∧ (afterCommit next).builds = none := by
    intro next
    rcases next with _ | _ | _ <;> exact ⟨rfl, rfl⟩
  obtain ⟨hprocess, horphans⟩ := commitStep_process (r := r) q ok
  refine .quiet hprocess horphans (fun k hk => .inl ?_) (by simp [hpoint]) (by simp [hpoint]) nofun
    honce
  cases q with
  | read id =>
    simp only [commitStep] at hk
    split at hk <;> exact hk
  | write id =>
    cases ok with
    | false => exact hk
    | true =>
      have hset : (r.setRecord id .committed).records[k]? = some .rolledBack := hk
      exact getElem?_of_setRecord (by simp) hset

theorem ProcessStep.written (hwrites : p.writes) (hmentions : p'.mentions = none)
    (honce : r.orphans.Nodup) : ProcessStep r p r p' := by
  refine .quiet rfl rfl (fun _ => .inl) (fun k hk => ?_) (fun k hk => ?_) ?_ honce
  · simp [mentions_of_tornDown (tornDown_of_stopped hk)] at hmentions
  · simp [mentions_of_owns (owns_of_builds hk)] at hmentions
  · rintro k rfl
    cases hwrites

theorem Accounted.keeps_wrote (h : Accounted d) (htask : task ∈ d.tasks) (hs : d.session = some s)
    (hw : Wrote task.point s s') (hclean : CleanPoint d i task.point)
    (hs' : d'.session = some s') (hprocess : d.restores.process = some k) (hkeeps : Keeps d k) :
    Keeps d' k := by
  obtain ⟨s₀, hs₀, hid, hk⟩ := hkeeps
  cases hs₀.symm.trans hs
  cases hw with
  | untouched hstate hid' => exact ⟨s', hs', hid'.trans hid, hstate ▸ hk⟩
  | unrestored hkeeps => simp [hk] at hkeeps
  | failed hp hstate | prepared id hp hstate => simp [hstate, SessionState.keepsRestore] at hk
  | committed hp hstate hid' => exact ⟨s', hs', hid'.trans hid, by rw [hstate]; rfl⟩
  | rolledBack restoreID hp =>
    rw [hp] at hclean
    refine absurd hprocess (h.stopped task htask k ?_)
    rw [hp]
    exact (hclean.2 s hs).symm.trans hid

theorem Point.holds_of_writes (h : p.writes) (hk : p.holds = some k) : p = .prepared k := by
  rcases owns_of_writes h with howns | ⟨id, rfl⟩
  · simp [owns_of_holds hk] at howns
  · cases hk
    rfl

theorem Accounted.advance {work : Work} (h : Accounted d) (hon : Honest d)
    (hclean : SettlesCleanly d (.advance i work)) (hi : d.tasks[i]? = some task)
    (hmove : PointMove d task work e p') : Accounted (e.setPoint i task p') := by
  have htask : task ∈ d.tasks := mem_of_getElem? hi
  -- a request that holds no process goes on
  have idle : ∀ {p'}, task.point.writes → mentions p' = none → task.point.owns = none →
      Accounted (d.setPoint i task p') := by
    intro p' hwrites hmentions howns
    refine h.request hon hi (.written hwrites hmentions h.once) rfl (fun k hk => ?_)
      fun _ _ hk => hk
    refine .inr (.inr ⟨hk, fun hholds => ?_⟩)
    simp [owns_of_holds hholds] at howns
  have ingests : ∀ {answer}, task.point.ingests → Accounted (d.setPoint i task (.done answer)) := by
    intro answer hp
    exact idle (writes_of_ingests hp) rfl (owns_of_ingests hp)
  cases hmove with
  | @wrote s s' p' hwrites hfound hchange hs hp =>
    have hadmits := hclean.1 task hi s (by simp [hfound, Except.toOption])
    have hw := change_wrote hchange hadmits
    have hmentions : p'.mentions = none := by
      rcases hp with rfl | ⟨-, status, code, rfl⟩
      · unfold afterWrite
        split <;> first | rfl | contradiction
      · rfl
    refine h.request hon hi (.written hwrites hmentions h.once) rfl (fun k hk => ?_)
      fun k hk => h.keeps_wrote htask hs hw (hclean.2 task hi) rfl hk
    by_cases hholds : task.point.holds = some k
    · rw [holds_of_writes hwrites hholds] at hchange
      cases hchange
      exact .inr (.inl ⟨_, rfl, rfl, rfl⟩)
    · exact .inr (.inr ⟨hk, hholds⟩)
  | refused hwrites herr =>
    rcases owns_of_writes hwrites with howns | ⟨id, hpoint⟩
    · exact idle hwrites (afterWrite_idle d.session (.error _) howns).1 howns
    · rw [hpoint]
      have hstep : ProcessStep d.restores task.point d.restores (.rolling .undo (.read id)) := by
        rw [hpoint]
        exact .quiet rfl rfl (fun _ => .inl) (by simp [Point.stopped]) (by simp [Point.builds])
          (by simp) h.once
      refine h.request hon hi hstep rfl (fun k hk => ?_) fun _ _ hk => hk
      by_cases hid : id = k
      · subst hid
        exact .inl rfl
      · refine .inr (.inr ⟨hk, fun hholds => hid ?_⟩)
        rw [hpoint] at hholds
        exact Option.some.inj hholds
  | failed hp => exact ingests hp
  | stored hp => exact ingests (by rw [hp]; rfl)
  | @prepare q r next hp hs =>
    refine h.request hon hi ?_ rfl (fun k hk => ?_) fun _ _ hk => hk
    · rw [hp]
      refine prepareStep_processStep hs h.once fun id hq hmem => ?_
      -- the tree of a restore belongs to the one request that owns it
      obtain ⟨t, ht, hpoint⟩ := h.trees id hmem
      obtain ⟨j, hj⟩ := mem_iff_getElem?.mp ht
      have hji := hon.exclusive i j task t id hi hj (by rw [hp, hq]; rfl) (by rw [hpoint]; rfl)
      subst hji
      cases hi.symm.trans hj
      rw [hp, hq] at hpoint
      cases hpoint
    · rcases prepareStep_holds hs hk with hholds | hother
      · exact .inl hholds
      · exact .inr (.inr (by rwa [hp]))
  | commit hp =>
    refine h.request hon hi (by rw [hp]; exact commitStep_processStep _ _ h.once) rfl
      (fun k hk => .inr (.inr ⟨?_, ?_⟩)) fun _ _ hk => hk
    · exact (commitStep_process _ _).1 ▸ hk
    · simp [hp, holds]
  | rollback hp =>
    refine h.request hon hi ?_ rfl (fun k hk => ?_) fun _ _ hk => hk
    · rw [hp]
      exact rollbackStep_processStep _ _ _ h.closed
        (fun k hk => h.stopped task htask k (by rw [hp]; exact hk)) h.once
    · refine (rollbackStep_holds _ _ _ h.closed (fun id hid => ?_) hk).imp_right
        fun hother => .inr (by rwa [hp])
      have howns : task.point.owns = some id := by rw [hp]; exact hid
      exact ⟨hon.bounded task htask id (mentions_of_owns howns),
        (hon.unrecorded task htask id howns).2⟩

theorem Accounted.addTask (h : Accounted d) (source : String) (hp : Begins d p) :
    Accounted (d.addTask source p) := by
  constructor
  case held =>
    intro id hid
    rcases h.held id hid with ⟨t, ht, hholds⟩ | hs
    · exact .inl ⟨t, mem_append_left _ ht, hholds⟩
    · exact .inr hs
  case closed => exact h.closed
  case stopped =>
    intro t ht id hid
    rcases mem_addTask ht with ht | rfl
    · exact h.stopped t ht id hid
    · have := tornDown_of_stopped hid
      simp [hp.tornDown] at this
  case building =>
    intro t ht id hid
    rcases mem_addTask ht with ht | rfl
    · exact h.building t ht id hid
    · have := owns_of_builds hid
      simp [hp.owns] at this
  case trees =>
    intro id hid
    obtain ⟨t, ht, hpoint⟩ := h.trees id hid
    exact ⟨t, mem_append_left _ ht, hpoint⟩
  case once => exact h.once

theorem Accounted.withSession {session : Option Session} (h : Accounted d)
    (hkeeps : ∀ k, Keeps d k → Keeps { d with session } k) : Accounted { d with session } :=
  { h with held := fun id hid => (h.held id hid).imp_right (hkeeps id) }

theorem Accounted.start {source : String} {request : Request} (h : Accounted d)
    (hm : StartMove d source request e p) : Accounted (e.addTask source p) := by
  cases hm with
  | refused | held => exact h.addTask source (.done _)
  | @reserved r s hnone =>
    have hreserved : Accounted (d.setSession s) := by
      refine h.withSession ?_
      rintro k ⟨s₀, hs₀, -⟩
      simp [hnone] at hs₀
    exact hreserved.addTask source (.done _)
  | request => exact h.addTask source (startPoint_starts d source request).begins

theorem Accounted.reaped (h : Accounted d)
    (hclean : ∀ s ∈ d.session, sessionExpired s d.now = true →
      NoRestore d ∧ s.restoreID = none) : Accounted d.reapExpired := by
  rcases reapExpired_cases d with heq | ⟨s, id, hs, hexpired, hid, -⟩
  · rw [heq]
    refine h.withSession ?_
    rintro k ⟨s, hs, hid, hkeeps⟩
    cases hexpired : sessionExpired s d.now with
    | true => simp [(hclean s hs hexpired).2] at hid
    | false => exact ⟨s, by simp [reap, hs, hexpired], hid, hkeeps⟩
  · simp [(hclean s hs hexpired).2] at hid

theorem Accounted.ofIdle (hidle : ∀ t ∈ d'.tasks, t.point.mentions = none)
    (hheld : ∀ id, d'.restores.process = some id → Keeps d' id)
    (hclosed : ∀ id : Nat, d'.restores.records[id]? = some .rolledBack →
      d'.restores.process ≠ some id)
    (horphans : d'.restores.orphans = []) : Accounted d' where
  held id hid := .inr (hheld id hid)
  closed := hclosed
  stopped t ht id hid := by
    have := mentions_of_tornDown (tornDown_of_stopped hid)
    simp [hidle t ht] at this
  building t ht id hid := by
    have := mentions_of_owns (owns_of_builds hid)
    simp [hidle t ht] at this
  trees id hid := by simp [horphans] at hid
  once := by simp [horphans]

theorem Accounted.crash (h : Accounted d) (hnone : NoRestore d) : Accounted d.crash :=
  .ofIdle (fun _ ht => (crash_idle ht).1) (h.noRestore hnone).1 h.closed (h.noRestore hnone).2

theorem recoverRecord_process (r : Restores) (id : Nat) (outcome : RecoverOutcome) :
    (recoverRecord r id outcome).orphans = r.orphans ∧
    ∀ k, (recoverRecord r id outcome).process = some k → r.process = some k ∧
      ((recoverRecord r id outcome).records[k]? = some .rolledBack →
        r.records[k]? = some .rolledBack) := by
  refine recoverRecord_induct (fun r' => r'.orphans = r.orphans ∧ ∀ k, r'.process = some k →
      r.process = some k ∧ (r'.records[k]? = some .rolledBack → r.records[k]? = some .rolledBack))
    ⟨rfl, fun k hk => ⟨hk, fun h => h⟩⟩
    (fun _ => ⟨rfl, fun k hk => ⟨hk, getElem?_of_setRecord (by simp)⟩⟩) fun _ => ?_
  cases outcome with
  | complete | stopped => exact ⟨rfl, nofun⟩
  | cut => exact ⟨rfl, fun k hk => ⟨hk, getElem?_of_setRecord (by simp)⟩⟩

theorem Accounted.recover (h : Accounted d)
    (hidle : ∀ t ∈ d.tasks, t.point.mentions = none ∧ t.point.restoring = false) (id : Nat)
    (outcome : RecoverOutcome) :
    Accounted (d.setRestores (recoverRecord d.restores id outcome)) := by
  obtain ⟨horphans, hprocess⟩ := recoverRecord_process d.restores id outcome
  obtain ⟨hheld, hnone⟩ := h.noRestore fun t ht => (hidle t ht).2
  refine .ofIdle (fun t ht => (hidle t ht).1) (fun k hk => hheld k (hprocess k hk).1)
    (fun k hrolled hk => ?_) (horphans.trans hnone)
  obtain ⟨hbefore, hclosed⟩ := hprocess k hk
  exact h.closed k (hclosed hrolled) hbefore

theorem Accounted.exits (h : Accounted d) : Accounted (d.setRestores d.restores.stopProcess) :=
  { h with held := nofun, closed := fun _ _ => nofun, stopped := fun _ _ _ _ => nofun }

theorem Accounted.step (h : Accounted d) (hon : Honest d) (hstopped : Stopped d)
    (hclean : SettlesCleanly d a) (hstep : d.step a = some d') : Accounted d' := by
  cases step_change hstep with
  | start hup hm => exact h.start hm
  | advance hup hi hm => exact h.advance hon hclean hi hm
  | reap => exact h.reaped hclean.2
  | tick | serve => exact { h with }
  | processExit => exact h.exits
  | crash => exact h.crash hclean.2
  | recover hdown => exact h.recover (hstopped hdown) _ _
  | boot => exact { h.reaped hclean.2 with }

theorem accounted_initial (standby : Bool) : Accounted (.initial standby) :=
  .ofIdle (by simp [Destination.initial]) (by simp [Destination.initial])
    (by simp [Destination.initial]) rfl

end Shiftgate.Transfer
