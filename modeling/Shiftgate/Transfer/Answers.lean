import Shiftgate.Transfer.SettledRuns

/-! What an answer of the destination says: which answers each request can get, how an answered
session stands to the one that is stored now, and what the destination can answer as long as no
restore has been asked for. -/

namespace Shiftgate.Transfer

open Library Checkpoint List Option Point Request

variable {d d' e : Destination} {a : Action} {i : Nat} {task : Task} {work : Work} {p p' : Point}
  {s s' : Session} {source : String} {request : Request}

def Answer.reports (answer : Answer) (state : SessionState) : Bool :=
  match answer with
  | .session s => s.state = state
  | .error .. | .lost => true
  | .restore _ | .missing => false

/-- The points that a request passes, for the requests whose answers the source acts on. -/
def Request.reaches (request : Request) (p : Point) : Bool :=
  match request, p with
  | .verify, .verify => true
  | .verify, .done answer => answer.reports .verified
  | .commit, .committing _ | .commit, .committed => true
  | .commit, .done answer => answer.reports .committed
  | .rollback, .rolling .handler _ | .rollback, .rolledBack _ => true
  | .rollback, .done answer => answer.reports .rolledBack
  | .getCleanup, .done _ => true
  | .verify, _ | .commit, _ | .rollback, _ | .getCleanup, _ => false
  | _, _ => true

theorem Starts.reaches (h : Starts d request p) : request.reaches p := by
  cases h with
  | answered hs hcommit hother =>
    cases request with
    | verify => exact absurd rfl hother.1
    | rollback => exact absurd rfl hother.2
    | commit => simpa [reaches, Answer.reports] using hcommit rfl
    | _ => rfl
  | refused => cases request <;> rfl
  | _ => rfl

theorem writeBack_refused {r : Refusal} (h : d.writeBack task = .error (.refused r)) :
    ∃ s, d.session = some s ∧ task.point.change s = .error r := by
  unfold Destination.writeBack at h
  split at h
  · unfold updateCleanup at h
    split at h
    · cases h
    · rename_i s hg
      split at h
      · rename_i err hc
        cases h
        exact ⟨s, (getForCleanup_ok hg).1, hc⟩
      · cases h
  · unfold updateSession at h
    split at h
    · cases h
    · rename_i s hg
      split at h
      · rename_i err hc
        cases h
        exact ⟨s, (getSession_ok hg).1, hc⟩
      · cases h

/-- The state in which the write-back leaves the session that it answers. -/
def Point.reported : Point → Option SessionState
  | .verify => some .verified
  | .committed => some .committed
  | .rolledBack _ => some .rolledBack
  | _ => none

variable {state : SessionState} {j : Nat} {t' : Task} {stored : Option Session}
  {result : Except (UpdateError Refusal) Session}

theorem change_reported (hp : p.reported = some state) (hchange : p.change s = .ok s') :
    s'.state = state := by
  cases p with
  | verify | rolledBack =>
    cases hp
    cases hchange
    rfl
  | committed =>
    cases hp
    simp only [change] at hchange
    split at hchange
    · cases hchange
    · split at hchange <;> cases hchange
      rfl
  | _ => cases hp

/-- A refused write-back is answered with an error; or, where another request has made it, with the
session that it left. -/
theorem refused_reports {err : UpdateError Refusal} (hp : task.point.reported = some state)
    (herr : d.writeBack task = .error err) :
    (task.point.answer d.session (.error err)).reports state := by
  cases err with
  | access err =>
    cases hpoint : task.point <;> simp [hpoint, reported] at hp <;> rfl
  | refused r =>
    obtain ⟨s, hs, hc⟩ := writeBack_refused herr
    cases hpoint : task.point with
    | verify | rolledBack =>
      rw [hpoint] at hc
      cases hc
    | committed =>
      rw [hpoint] at hc hp
      cases hp
      simp only [change] at hc
      split at hc
      · rename_i hstate
        cases hc
        rw [hs]
        simpa [answer, Answer.reports] using hstate
      · split at hc <;> cases hc
        rfl
    | _ => simp [hpoint, reported] at hp

section

variable (hm : PointMove d task work e p')

include hm

theorem PointMove.not_done (answer : Answer) : task.point ≠ .done answer := by
  intro hdone
  cases hm with
  | wrote h | refused h | failed h =>
    rw [hdone] at h
    cases h
  | stored h | prepare h | commit h | rollback h => cases hdone.symm.trans h

theorem PointMove.reports (hp : task.point.reported = some state) :
    ∃ answer, p' = .done answer ∧ answer.reports state := by
  have after : ∀ result, task.point.afterWrite d.session result =
      .done (task.point.answer d.session result) := by
    intro result
    cases hpoint : task.point <;> simp [hpoint, reported] at hp <;> rfl
  cases hm with
  | wrote hwrites hfound hchange hs hp' =>
    rcases hp' with rfl | ⟨huploads, -⟩
    · refine ⟨_, after _, ?_⟩
      have hstate := change_reported hp hchange
      cases hpoint : task.point <;> simp [hpoint, reported] at hp <;>
        simpa [answer, Answer.reports] using hstate
    · cases hpoint : task.point <;> simp_all [uploads, reported]
  | refused hwrites herr => exact ⟨_, after _, refused_reports hp herr⟩
  | failed => exact ⟨_, rfl, rfl⟩
  | stored h | prepare h | commit h | rollback h =>
    rw [h] at hp
    cases hp

theorem PointMove.rolling {caller : RollbackCaller} {q : RollbackPoint}
    (hp : task.point = .rolling caller q) : ∃ next, p' = afterRollback caller q.id next := by
  cases hm with
  | rollback hq =>
    cases hp.symm.trans hq
    exact ⟨_, rfl⟩
  | wrote hw | refused hw | failed hw =>
    rw [hp] at hw
    cases hw
  | stored hq | prepare hq | commit hq => cases hp.symm.trans hq

theorem PointMove.reaches (h : request.reaches task.point) : request.reaches p' := by
  have hdone := hm.not_done
  cases request with
  | verify =>
    cases hp : task.point with
    | verify =>
      obtain ⟨answer, rfl, hanswer⟩ := hm.reports (by rw [hp]; rfl)
      exact hanswer
    | done answer => exact absurd hp (hdone answer)
    | _ => simp [hp, reaches] at h
  | commit =>
    cases hp : task.point with
    | committing q =>
      cases hm with
      | commit hq =>
        rcases (commitStep d.restores (work = .ok) _).2 with q' | ok
        · rfl
        · cases ok <;> rfl
      | wrote hw | refused hw | failed hw =>
        rw [hp] at hw
        cases hw
      | stored hq | prepare hq | rollback hq => cases hp.symm.trans hq
    | committed =>
      obtain ⟨answer, rfl, hanswer⟩ := hm.reports (by rw [hp]; rfl)
      exact hanswer
    | done answer => exact absurd hp (hdone answer)
    | _ => simp [hp, reaches] at h
  | rollback =>
    cases hp : task.point with
    | rolling caller q =>
      have hcaller : caller = .handler := by
        rw [hp] at h
        cases caller <;> first | rfl | cases h
      subst hcaller
      obtain ⟨q' | ok, rfl⟩ := hm.rolling hp
      · rfl
      · cases ok <;> rfl
    | rolledBack restoreID =>
      obtain ⟨answer, rfl, hanswer⟩ := hm.reports (by rw [hp]; rfl)
      exact hanswer
    | done answer => exact absurd hp (hdone answer)
    | _ => simp [hp, reaches] at h
  | getCleanup =>
    cases hp : task.point with
    | done answer => exact absurd hp (hdone answer)
    | _ => simp [hp, reaches] at h
  | _ => rfl

end

inductive TaskMove (d d' : Destination) (j : Nat) (t' : Task) : Action → Prop
  | same {a : Action} (hj : d.tasks[j]? = some t') : TaskMove d d' j t' a
  | advanced {t : Task} {work : Work} {e : Destination} {p' : Point} (hj : d.tasks[j]? = some t)
      (hm : PointMove d t work e p') (hd : d' = e.setPoint j t p')
      (ht : t' = { t with point := p' }) : TaskMove d d' j t' (.advance j work)
  | lost {t : Task} (hj : d.tasks[j]? = some t) (ht : t' = { t with point := .done .lost }) :
      TaskMove d d' j t' .crash
  | started {source : String} {request : Request} {e : Destination} {p : Point}
      (hj : j = d.tasks.length) (hm : StartMove d source request e p)
      (hd : d' = e.addTask source p) (ht : t' = ⟨source, p⟩) :
      TaskMove d d' j t' (.start source request)
  | reaper {a : Action} {source : String} {id : Nat} (hj : j = d.tasks.length)
      (ht : t' = ⟨source, .rolling .reaper (.read id)⟩) : TaskMove d d' j t' a

theorem getElem?_addTask (h : (d.addTask source p).tasks[j]? = some t') :
    d.tasks[j]? = some t' ∨ j = d.tasks.length ∧ t' = ⟨source, p⟩ := by
  simp only [Destination.addTask] at h
  by_cases hj : j < d.tasks.length
  · rw [getElem?_append_left hj] at h
    exact .inl h
  · rw [getElem?_append_right (by omega)] at h
    cases hk : j - d.tasks.length with
    | zero =>
      simp only [hk, getElem?_cons_zero, some.injEq] at h
      exact .inr ⟨by omega, h.symm⟩
    | succ n => simp [hk] at h

theorem reapExpired_task (h : d.reapExpired.tasks[j]? = some t') : TaskMove d d' j t' a := by
  rcases reapExpired_cases d with heq | ⟨s, id, -, -, -, heq⟩
  · rw [heq] at h
    exact .same h
  · rw [heq] at h
    rcases getElem?_addTask h with h | ⟨hj, ht⟩
    · exact .same h
    · exact .reaper hj ht

theorem Change.taskMove (hc : Change d a d') (hj : d'.tasks[j]? = some t') :
    TaskMove d d' j t' a := by
  cases hc with
  | start hup hm =>
    rcases getElem?_addTask hj with h | ⟨hlast, ht⟩
    · exact .same (hm.tasks ▸ h)
    · exact .started (hm.tasks ▸ hlast) hm rfl ht
  | advance hup hi hm =>
    rcases getElem?_setPoint hj with ⟨rfl, rfl⟩ | ⟨-, hj⟩
    · exact .advanced hi hm rfl rfl
    · exact .same (hm.tasks ▸ hj)
  | reap | boot => exact reapExpired_task hj
  | crash =>
    obtain ⟨t, ht, heq⟩ := map_eq_some_iff.mp (getElem?_map.symm.trans hj)
    split at heq
    · exact .same (heq ▸ ht)
    · exact .lost ht heq.symm
  | tick | processExit | recover | serve => exact .same hj

theorem Change.length_le (hc : Change d a d') : d.tasks.length ≤ d'.tasks.length := by
  have reaped : d.tasks.length ≤ d.reapExpired.tasks.length := by
    rcases reapExpired_cases d with heq | ⟨s, id, -, -, -, heq⟩ <;> rw [heq]
    simp [Destination.addTask]
  cases hc with
  | start hup hm => cases hm <;> simp [Destination.addTask, Destination.setSession]
  | advance hup hi hm => simp [Destination.setPoint, hm.tasks]
  | reap | boot => exact reaped
  | crash => simp [Destination.crash]
  | tick | processExit | recover | serve => exact le_rfl

theorem reaches_lost (request : Request) : request.reaches (.done .lost) := by
  cases request <;> rfl

theorem StartMove.reaches (hm : StartMove d source request e p) : request.reaches p := by
  cases hm with
  | refused | held | reserved => rfl
  | request => exact (startPoint_starts d source request).reaches

theorem Change.reaches {t : Task} (hc : Change d a d') (hj : d.tasks[j]? = some t)
    (h : request.reaches t.point) : ∃ t', d'.tasks[j]? = some t' ∧ request.reaches t'.point := by
  have hlt : j < d.tasks.length := (List.getElem?_eq_some_iff.mp hj).1
  have hlt' : j < d'.tasks.length := lt_of_lt_of_le hlt hc.length_le
  refine ⟨d'.tasks[j], getElem?_eq_getElem hlt', ?_⟩
  cases hc.taskMove (getElem?_eq_getElem hlt') with
  | same hj' =>
    cases hj.symm.trans hj'
    exact h
  | advanced hi hm hd ht =>
    cases hj.symm.trans hi
    rw [ht]
    exact hm.reaches h
  | lost hj' ht =>
    rw [ht]
    exact reaches_lost request
  | started hlast | reaper hlast => exact absurd hlast (Nat.ne_of_lt hlt)

def Point.copy : Point → Option Session
  | .chunkImport _ s | .done (.session s) => some s
  | _ => none

theorem answer_copy (hcopy : (done (p.answer stored result)).copy = some s) :
    result = .ok s ∨ stored = some s := by
  unfold answer at hcopy
  split at hcopy
  case h_6 =>
    cases hcopy
    exact .inl rfl
  case h_7 =>
    cases hs : stored with
    | none => simp [hs, copy, transferPersistFailed] at hcopy
    | some s' =>
      simp only [hs, map_some, getD_some, copy, some.injEq] at hcopy
      exact .inr (by rw [hcopy])
  all_goals cases hcopy

theorem afterWrite_copy (hcopy : (p.afterWrite stored result).copy = some s) :
    result = .ok s ∨ stored = some s := by
  unfold afterWrite at hcopy
  split at hcopy
  · cases hcopy
    exact .inl rfl
  · cases hcopy
  · exact answer_copy hcopy

theorem PointMove.copy (hm : PointMove d task work e p') (hcopy : p'.copy = some s) :
    d.session = some s ∨ e.session = some s ∨ task.point.copy = some s := by
  cases hm with
  | wrote hwrites hfound hchange hs hp =>
    rcases hp with rfl | ⟨-, status, code, rfl⟩
    · rcases afterWrite_copy hcopy with h | h
      · cases h
        exact .inr (.inl rfl)
      · exact .inl h
    · cases hcopy
  | refused hwrites herr =>
    rcases afterWrite_copy hcopy with h | h
    · cases h
    · exact .inl h
  | failed => cases hcopy
  | stored hp =>
    cases hcopy
    exact .inr (.inr (by rw [hp]; rfl))
  | @prepare p r next => cases next <;> cases hcopy
  | commit =>
    rcases hn : (commitStep d.restores (work = .ok) _).2 with q | ok
    · rw [hn] at hcopy
      cases hcopy
    · rw [hn] at hcopy
      cases ok <;> cases hcopy
  | @rollback caller =>
    rcases hn : (rollbackStep d.restores (work = .ok) _).2 with q | ok
    · rw [hn] at hcopy
      cases hcopy
    · rw [hn] at hcopy
      cases caller <;> cases ok <;> cases hcopy

theorem Starts.copy (h : Starts d request p) (hcopy : p.copy = some s) : d.session = some s := by
  cases h with
  | answered hs =>
    cases hcopy
    exact hs
  | _ => cases hcopy

theorem StartMove.copy (hm : StartMove d source request e p) (hcopy : p.copy = some s) :
    e.session = some s := by
  cases hm with
  | refused => cases hcopy
  | held hs =>
    cases hcopy
    exact hs
  | reserved =>
    cases hcopy
    rfl
  | request => exact (startPoint_starts _ _ _).copy hcopy

def Copies (d : Destination) : Prop :=
  ∀ (j : Nat) (t : Task) (s : Session), d.tasks[j]? = some t → t.point.copy = some s →
    ∃ s', d.session = some s' ∧ Forward s s'

theorem Copies.step (h : Copies d) (hadmitted : WritesAdmitted d a) (hstep : d.step a = some d') :
    Copies d' := by
  have forward : ∀ {s}, (∃ s', d.session = some s' ∧ Forward s s') →
      ∃ s', d'.session = some s' ∧ Forward s s' := by
    rintro s ⟨s', hs', hf⟩
    obtain ⟨s'', hs'', hf'⟩ := step_forward hstep hadmitted hs'
    exact ⟨s'', hs'', hf.trans hf'⟩
  intro j t s hj hcopy
  cases (step_change hstep).taskMove hj with
  | same hj => exact forward (h j t s hj hcopy)
  | advanced hi hm hd ht =>
    subst hd ht
    rcases hm.copy hcopy with hs | hs | hs
    · exact forward ⟨s, hs, .refl s⟩
    · exact ⟨s, hs, .refl s⟩
    · exact forward (h j _ s hi hs)
  | started hj hm hd ht =>
    subst hd ht
    exact ⟨s, hm.copy hcopy, .refl s⟩
  | lost hj ht | reaper hj ht =>
    subst ht
    cases hcopy

/-- The request has nothing to do with a restore that was made, and answers no committed session. -/
def Point.untouched (p : Point) : Bool :=
  match p with
  | .preparing _ | .prepared _ | .prepareFailed | .committing (.write _) | .committed => false
  | .rolling .prepare _ | .rolling .undo _ => false
  | .chunkImport _ s | .done (.session s) => s.state ≠ .committed
  | _ => true

structure Untouched (d : Destination) : Prop where
  records : d.restores.records = []
  process : d.restores.process = none
  orphans : d.restores.orphans = []
  points : ∀ (j : Nat) (t : Task), d.tasks[j]? = some t → t.point.untouched
  session : ∀ s, d.session = some s → s.state ≠ .committed

theorem untouched_of_copy (hcopy : ∀ s, p.copy = some s → s.state ≠ .committed)
    (hp : p.ingests ∨ ∃ answer, p = .done answer) : p.untouched := by
  rcases hp with hp | ⟨answer, rfl⟩
  · cases p with
    | chunkImport size s => simpa [untouched] using hcopy s rfl
    | _ => first | rfl | cases hp
  · cases answer with
    | session s => simpa [untouched] using hcopy s rfl
    | _ => rfl

theorem change_uncommitted (hp : p.untouched) (hs : s.state ≠ .committed)
    (hchange : p.change s = .ok s') : s'.state ≠ .committed := by
  cases p with
  | importKey | hold =>
    simp only [change] at hchange
    repeat' split at hchange
    all_goals
      cases hchange
      try simp
  | chunkGate =>
    simp only [change] at hchange
    repeat' split at hchange
    all_goals
      cases hchange
      try exact hs
  | committed => cases hp
  | chunkImport | preparing | committing | rolling | done =>
    cases hchange
    exact hs
  | importManifest | verify | prepared | prepareFailed | rolledBack =>
    cases hchange
    simp

theorem Untouched.starts (h : Untouched d) (hstarts : Starts d request p)
    (hr : request ≠ .restore) : p.untouched := by
  cases hstarts with
  | restore => exact absurd rfl hr
  | answered hs => simpa [untouched] using h.session _ hs
  | _ => rfl

def Restores.Empty (r : Restores) : Prop := r.records = [] ∧ r.process = none ∧ r.orphans = []

theorem rollbackStep_empty {r : Restores} (h : Restores.Empty r) (ok : Bool) (q : RollbackPoint) :
    Restores.Empty (rollbackStep r ok q).1 := by
  obtain ⟨hrecords, hprocess, horphans⟩ := h
  cases q with
  | read id => simp [rollbackStep, hrecords, Restores.Empty, hprocess, horphans]
  | begin id => exact ⟨by simp [rollbackStep, Restores.setRecord, hrecords], hprocess, horphans⟩
  | stop id => exact ⟨hrecords, rfl, horphans⟩
  | finish id =>
    cases ok
    · exact ⟨hrecords, hprocess, horphans⟩
    · exact ⟨by simp [rollbackStep, Restores.setRecord, Restores.endRestore, hrecords], hprocess,
        horphans⟩

theorem afterWrite_untouched (h : Untouched d) (hp : p.untouched)
    (hresult : ∀ s, result = .ok s → s.state ≠ .committed) :
    (p.afterWrite d.session result).untouched := by
  refine untouched_of_copy (fun s hcopy => ?_) ?_
  · rcases afterWrite_copy hcopy with hs | hs
    · exact hresult s hs
    · exact h.session s hs
  · unfold afterWrite
    split
    · exact .inl rfl
    · cases hp
    · exact .inr ⟨_, rfl⟩

theorem PointMove.untouched (hm : PointMove d task work e p') (h : Untouched d)
    (hp : task.point.untouched) :
    p'.untouched ∧ Restores.Empty e.restores ∧ ∀ s, e.session = some s → s.state ≠ .committed := by
  have hempty : Restores.Empty d.restores := ⟨h.records, h.process, h.orphans⟩
  cases hm with
  | wrote hwrites hfound hchange hs hp' =>
    have hstate := change_uncommitted hp (h.session _ hs) hchange
    refine ⟨?_, hempty, fun s hs' => ?_⟩
    · rcases hp' with rfl | ⟨-, status, code, rfl⟩
      · exact afterWrite_untouched h hp fun s hok => by
          cases hok
          exact hstate
      · rfl
    · cases hs'
      exact hstate
  | refused hwrites herr => exact ⟨afterWrite_untouched h hp nofun, hempty, h.session⟩
  | failed => exact ⟨rfl, hempty, h.session⟩
  | stored hpoint =>
    rw [hpoint] at hp
    exact ⟨hp, hempty, h.session⟩
  | prepare hpoint =>
    rw [hpoint] at hp
    cases hp
  | @commit q hpoint =>
    rw [hpoint] at hp
    cases q with
    | read id =>
      have hread :
          commitStep d.restores (work = .ok) (.read id) = (d.restores, .returned false) := by
        simp [commitStep, h.records]
      rw [hread]
      exact ⟨rfl, hempty, h.session⟩
    | write id => cases hp
  | @rollback caller q hpoint =>
    rw [hpoint] at hp
    refine ⟨?_, rollbackStep_empty hempty _ q, h.session⟩
    rcases (rollbackStep d.restores (work = .ok) q).2 with q' | ok
    · cases caller <;> first | rfl | cases hp
    · cases caller <;> cases ok <;> first | rfl | cases hp

theorem Untouched.step (h : Untouched d) (hstep : d.step a = some d')
    (ha : ∀ source, a ≠ .start source .restore) : Untouched d' := by
  have hempty : Restores.Empty d.restores := ⟨h.records, h.process, h.orphans⟩
  have hchange := step_change hstep
  have hpoints : ∀ (j : Nat) (t : Task), d'.tasks[j]? = some t → t.point.untouched := by
    intro j t hj
    cases hchange.taskMove hj with
    | same hj => exact h.points j t hj
    | advanced hi hm hd ht =>
      subst ht
      exact (hm.untouched h (h.points j _ hi)).1
    | lost hj ht | reaper hj ht =>
      subst ht
      rfl
    | @started source request e p hj hm hd ht =>
      subst ht
      cases hm with
      | refused => rfl
      | held hs => simpa [untouched] using h.session _ hs
      | reserved hnone hsource hstate => simp [untouched, hstate]
      | request => exact h.starts (startPoint_starts _ _ _) fun hr => ha source (by rw [hr])
  have reaped : ∀ s, d.reapExpired.session = some s → s.state ≠ .committed := by
    intro s hs
    rw [reapExpired_session] at hs
    obtain ⟨s₀, hs₀, rfl⟩ := map_eq_some_iff.mp hs
    split_ifs
    · simp
    · exact h.session s₀ hs₀
  have reapedRestores : d.reapExpired.restores = d.restores := by
    rcases reapExpired_cases d with heq | ⟨s, id, -, -, -, heq⟩
    · rw [heq]
    · rw [heq]
      rfl
  have whole : Restores.Empty d'.restores → (∀ s, d'.session = some s → s.state ≠ .committed) →
      Untouched d' := fun he hs => ⟨he.1, he.2.1, he.2.2, hpoints, hs⟩
  cases hchange with
  | start hup hm =>
    cases hm with
    | reserved hnone hsource hstate =>
      refine whole hempty fun s hs => ?_
      cases hs
      simp [hstate]
    | refused | held | request => exact whole hempty h.session
  | advance hup hi hm =>
    obtain ⟨-, he, hs⟩ := hm.untouched h (h.points _ _ hi)
    exact whole he hs
  | reap | boot => exact whole (reapedRestores ▸ hempty) reaped
  | processExit => exact whole ⟨h.records, rfl, h.orphans⟩ h.session
  | recover =>
    refine whole ?_ h.session
    show Restores.Empty (recoverRecord d.restores _ _)
    simpa [recoverRecord, h.records] using hempty
  | tick | crash | serve => exact whole hempty h.session

def Sourced (machine : String) (d : Destination) : Prop :=
  ∀ s, d.session = some s → s.sourceMachineID = machine

theorem change_source (hchange : p.change s = .ok s') : s'.sourceMachineID = s.sourceMachineID := by
  cases p <;> simp only [change] at hchange <;> (repeat' split at hchange) <;>
    cases hchange <;> rfl

theorem Sourced.step {machine : String} (h : Sourced machine d) (hstep : d.step a = some d')
    (ha : ∀ source request, a = .start source request → source = machine) : Sourced machine d' := by
  have reaped : Sourced machine { d with session := reap d.session d.now } := by
    intro s hs
    obtain ⟨s₀, hs₀, rfl⟩ := map_eq_some_iff.mp hs
    split_ifs <;> exact h s₀ hs₀
  cases step_change hstep with
  | @start source request e p hup hm =>
    cases hm with
    | reserved hnone hsource =>
      intro s hs
      cases hs
      exact hsource.trans (ha source _ rfl)
    | refused | held | request => exact h
  | advance hup hi hm =>
    rcases hm.session with hsame | ⟨s, s', hw⟩
    · exact fun s hs => h s (hsame ▸ hs)
    · intro s₁ hs₁
      cases hw.after.symm.trans hs₁
      exact (change_source hw.change).trans (h s hw.before)
  | reap | boot => exact fun s hs => reaped s (reapExpired_session d ▸ hs)
  | tick | processExit | crash | recover | serve => exact h

end Shiftgate.Transfer
