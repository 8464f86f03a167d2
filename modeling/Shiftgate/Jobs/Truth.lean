import Shiftgate.Jobs.Moves

/-! What the status of a job says about the agent's migration. A status that an observation of the
agent supports stays true, because the agent does not leave a terminal stage; a status written
without one, or over a settled row, need not be. -/

namespace Shiftgate.Jobs

open Library Migration Option

def Ended (agent : Option AgentMigration) : Prop :=
  ∀ m ∈ agent, m.stage.terminal = true ∧ m.stage ≠ .completed

def Told : JobStatus → Option AgentMigration → Prop
  | .queued, _ | .running, _ => True
  | .completed, agent => ∃ m ∈ agent, m.stage = .completed
  | .failed, agent | .cancelled, agent => Ended agent

instance (agent : Option AgentMigration) : Decidable (Ended agent) :=
  inferInstanceAs (Decidable (∀ m ∈ agent, _ ∧ _))

def Shows (seen : Option AgentMigration) (status : JobStatus) : Prop :=
  ∃ m ∈ seen, migrationJobStatus m.stage = status

instance (seen : Option AgentMigration) (status : JobStatus) : Decidable (Shows seen status) :=
  inferInstanceAs (Decidable (∃ m ∈ seen, _ = _))

def Task.snapshots : Task → List AgentMigration
  | .worker w => w.snapshots
  | .handler point => point.snapshots

def Task.Sound : Task → Prop
  | .worker w => w.Sound
  | .handler point => point.Sound

def Task.unmanaged : Task → Bool
  | .worker _ => false
  | .handler point => point.unmanaged

variable {stage : Stage} {status : JobStatus} {m : AgentMigration} {reason : String}
  {requests : Requests Call Reply} {u : System} {task : Task} {row : JobRow}

theorem terminal_stays {next : Stage} (h : canTransition stage next = true) :
    stage.terminal = false := by
  cases stage <;> first | rfl | cases h

def Saw (agent : Option AgentMigration) (seen : AgentMigration) : Prop :=
  ∃ m ∈ agent, seen.stage.terminal = true → m.stage = seen.stage

theorem Saw.told {agent : Option AgentMigration} {seen : AgentMigration} (h : Saw agent seen)
    (hstatus : migrationJobStatus seen.stage = status) : Told status agent := by
  obtain ⟨m, rfl, hstage⟩ := h
  subst hstatus
  cases hseen : seen.stage <;> rw [hseen] at hstage <;>
    simp [Told, Ended, migrationJobStatus, Stage.terminal] at hstage ⊢ <;> simp [hstage]

theorem Saw.moved {seen : AgentMigration} (hmove : canTransition m.stage stage = true)
    (h : Saw (some m) seen) : Saw (some { m with stage, failureReason := reason }) seen := by
  obtain ⟨found, hfound, hstage⟩ := h
  cases hfound
  refine ⟨_, rfl, fun hterminal => ?_⟩
  have hend := terminal_stays hmove
  rw [hstage hterminal, hterminal] at hend
  cases hend

theorem Told.moved (hmove : canTransition m.stage stage = true) (h : Told status (some m)) :
    Told status (some { m with stage, failureReason := reason }) := by
  have hend := terminal_stays hmove
  cases status with
  | queued | running => trivial
  | completed =>
    obtain ⟨found, hfound, hstage⟩ := h
    cases hfound
    rw [hstage] at hend
    cases hend
  | failed | cancelled =>
    have hterminal := (h m rfl).1
    rw [hterminal] at hend
    cases hend

/-- A settlement needs an end that the agent was seen to reach, or nothing of the migration left.
Without the lease it changes nothing, and on an unmanaged row it may not overwrite another status.
-/
def Task.SettlesTruly (row : JobRow) (agent : Option AgentMigration) : Task → Prop
  | .worker w =>
    match w.point with
    | .writing (.finish status seen _) =>
      row.leaseOwner = some w.job.owner → Shows seen status ∨ Ended agent
    | _ => True
  | .handler point =>
    match point with
    | .settling settlement =>
      (row.status.active = true ∨ row.status = settlement.status) ∧
        (Shows settlement.seen settlement.status ∨ Ended agent)
    | _ => True

instance (row : JobRow) (agent : Option AgentMigration) :
    ∀ task : Task, Decidable (task.SettlesTruly row agent)
  | .worker ⟨_, _, _, _, .writing (.finish _ _ _)⟩ =>
    inferInstanceAs (Decidable (_ = _ → _ ∨ _))
  | .worker ⟨_, _, _, _, .writing .retry⟩ | .worker ⟨_, _, _, _, .writing .assign⟩
  | .worker ⟨_, _, _, _, .writing (.renew _)⟩ | .worker ⟨_, _, _, _, .writing .progress⟩
  | .worker ⟨_, _, _, _, .start⟩ | .worker ⟨_, _, _, _, .creating _⟩
  | .worker ⟨_, _, _, _, .refresh⟩ | .worker ⟨_, _, _, _, .cancelling _⟩
  | .worker ⟨_, _, _, _, .polling _⟩ | .worker ⟨_, _, _, _, .waiting⟩
  | .worker ⟨_, _, _, _, .done⟩ => isTrue trivial
  | .handler (.settling _) => inferInstanceAs (Decidable ((_ ∨ _) ∧ (_ ∨ _)))
  | .handler .poll | .handler (.listing _ _) | .handler (.getting _ _) | .handler .dispatch
  | .handler (.creating _) | .handler .cancel | .handler .requesting | .handler (.cancelling _ _)
  | .handler .done => isTrue trivial

namespace System

/-- Every settlement is true when written, and no migration is created for a settled row. -/
def SettlesTruly (s : System) : Action → Prop
  | .advance i true _ => ∀ task ∈ s.tasks[i]?, task.SettlesTruly s.row s.agent
  | .serve k (.ok _) => s.requests.pending k = some .create → s.agent = none →
      s.row.status ≠ .failed ∧ s.row.status ≠ .cancelled
  | _ => True

instance (s : System) : ∀ a, Decidable (SettlesTruly s a)
  | .advance _ true _ => inferInstanceAs (Decidable (∀ task ∈ (_ : Option Task),
      task.SettlesTruly _ _))
  | .serve _ (.ok _) => inferInstanceAs (Decidable (_ = _ → _ = _ → _ ∧ _))
  | .advance _ false _ | .serve _ .refuse | .serve _ .fail | .tick _ | .claim _ | .poll | .cancel
  | .relay | .answer _ | .giveUp _ | .agent _ _ => isTrue trivial

/-- What a task has seen is what the agent has, and it writes to rows without a worker. -/
structure Fits (s : System) (task : Task) : Prop where
  seen : ∀ m ∈ task.snapshots, Saw s.agent m
  sound : task.Sound
  unmanaged : task.unmanaged = true → s.row.managed = false

structure Truthful (s : System) : Prop where
  reported : ∀ m, s.Reported m → Saw s.agent m
  fits : ∀ task ∈ s.tasks, s.Fits task
  unleased : s.row.managed = false ∨ s.row.status.active = false → s.row.leaseOwner = none
  told : Told s.row.status s.agent

variable {s t : System} {a : Action} {w : Worker} {i : Nat}

theorem Truthful.keep (h : Truthful s) (hagent : t.agent = s.agent)
    (hreported : ∀ m, t.Reported m → s.Reported m)
    (htasks : ∀ task ∈ t.tasks, task ∈ s.tasks ∨ s.Fits task)
    (hmanaged : t.row.managed = s.row.managed)
    (hunleased : t.row.managed = false ∨ t.row.status.active = false → t.row.leaseOwner = none)
    (htold : Told t.row.status s.agent) : Truthful t := by
  refine ⟨fun m hm => hagent ▸ h.reported m (hreported m hm), fun task htask => ?_, hunleased,
    hagent ▸ htold⟩
  have hfits : s.Fits task := (htasks task htask).elim (h.fits task) id
  exact ⟨fun m hm => hagent ▸ hfits.seen m hm, hfits.sound, fun hu => hmanaged ▸ hfits.unmanaged hu⟩

theorem reported_of_send {tasks : List Task}
    (hr : requests = s.requests ∨ ∃ call, requests = s.requests.send call)
    (h : ({ s with requests, tasks } : System).Reported m) : s.Reported m := by
  obtain ⟨k, hk⟩ := h
  rcases hr with rfl | ⟨call, rfl⟩
  · exact ⟨k, hk⟩
  · exact ⟨k, Requests.reply_of_send hk⟩

theorem Fits.mem_set {new : Task} (hfits : s.Fits new) (htasks : u.tasks = s.tasks)
    (hmem : task ∈ (u.setTask i new).tasks) : task ∈ s.tasks ∨ s.Fits task := by
  rcases mem_setTask hmem with hold | rfl
  · exact .inl (htasks ▸ hold)
  · exact .inr hfits

theorem Fits.mem_spawn {new : Task} (hfits : s.Fits new) (htasks : u.tasks = s.tasks)
    (hmem : task ∈ (u.spawn new).tasks) : task ∈ s.tasks ∨ s.Fits task := by
  rcases System.mem_spawn hmem with hold | rfl
  · exact .inl (htasks ▸ hold)
  · exact .inr hfits

theorem fits_handler {point : HandlerPoint} (hseen : point.snapshots = [])
    (hsound : ∀ settlement, point ≠ .settling settlement) (hpoint : point.unmanaged = false) :
    s.Fits (.handler point) := by
  refine ⟨fun m hm => ?_, fun settlement h => absurd h (hsound settlement), fun hu => ?_⟩
  · rw [Task.snapshots, hseen] at hm
    cases hm
  · rw [Task.unmanaged, hpoint] at hu
    cases hu

theorem Truthful.move (h : Truthful s)
    (hr : requests = s.requests ∨ ∃ call, requests = s.requests.send call) (hfits : s.Fits task) :
    Truthful (({ s with requests } : System).setTask i task) :=
  h.keep rfl (fun _ hm => reported_of_send hr hm)
    (fun _ => hfits.mem_set rfl) rfl h.unleased h.told

theorem Truthful.fits_at (h : Truthful s) (hi : s.tasks[i]? = some task) : s.Fits task :=
  h.fits task (List.mem_of_getElem? hi)

theorem Fits.next (write : Write) (row : Option JobRow) (h : s.Fits (.worker w)) :
    s.Fits (.worker (write.next w row)) := by
  obtain ⟨hquiet, hsound⟩ := write.next_quiet w row
  refine ⟨fun m hm => h.seen m ?_, hsound, nofun⟩
  simp only [Task.snapshots, hquiet] at hm
  exact List.mem_append_left _ hm

theorem told_of_reports {seen : Option AgentMigration} (hseen : ∀ m ∈ seen, Saw s.agent m)
    (hreports : Reports status seen) (htrue : Shows seen status ∨ Ended s.agent) :
    Told status s.agent := by
  have hshown : Shows seen status → Told status s.agent := by
    rintro ⟨m, hm, hstatus⟩
    exact (hseen m hm).told hstatus
  rcases htrue with hshows | hended
  · exact hshown hshows
  · rcases hreports with hshows | rfl | rfl
    · exact hshown hshows
    · exact hended
    · exact hended

section

variable (h : Truthful s)

include h

theorem Truthful.claimed {owner : String}
    (hclaim : claimNextManagedMigration s.row owner migrationWorkerLease s.now = some row)
    (hfits : s.Fits task) : Truthful (({ s with row } : System).spawn task) := by
  obtain ⟨-, hmanaged, -, rfl⟩ := claimNextManagedMigration_ok hclaim
  refine h.keep rfl (fun _ hm => hm)
    (fun _ => hfits.mem_spawn rfl) rfl ?_ trivial
  rintro (hun | hdone)
  · exact absurd (hmanaged.symm.trans hun) (by decide)
  · cases hdone

theorem Truthful.wrote {write : Write} (hi : s.tasks[i]? = some (.worker w))
    (hpoint : w.point = .writing write) (hcond : (Task.worker w).SettlesTruly s.row s.agent)
    (hrow : write.apply w s.row s.now = some row) :
    Truthful (({ s with row } : System).setTask i (.worker (write.next w (some row)))) := by
  have hfits := h.fits_at hi
  have hwrite := Write.apply_ok hrow
  refine h.keep rfl (fun _ hm => hm)
    (fun _ => (hfits.next write (some row)).mem_set rfl)
    hwrite.managed_eq ?_ ?_
  · rintro (hun | hdone)
    · exact absurd (hwrite.managed_eq.symm.trans hun) (by simp [hwrite.managed])
    · show row.leaseOwner = none
      change row.status.active = false at hdone
      rw [hwrite.status_eq] at hdone
      rw [hwrite.owner_eq, if_neg]
      intro hrunning
      rw [hrunning] at hdone
      cases hdone
  · show Told row.status s.agent
    rw [hwrite.status_eq]
    cases write with
    | retry | assign | renew | progress => trivial
    | finish status seen reason =>
      simp only [Task.SettlesTruly, hpoint] at hcond
      refine told_of_reports (fun m hm => hfits.seen m ?_) (hfits.sound _ _ _ hpoint)
        (hcond hwrite.leased)
      simp only [Task.snapshots, Worker.snapshots, hpoint]
      exact List.mem_append_right _ (mem_toList.mpr hm)

theorem Truthful.settled {settlement : Settlement}
    (hi : s.tasks[i]? = some (.handler (.settling settlement)))
    (hcond : (Task.handler (.settling settlement)).SettlesTruly s.row s.agent) :
    Truthful (({ s with row := updateMigrationStatus s.row settlement.status
                                  settlement.progressAgentID settlement.reason } : System).setTask i
      (.handler .done)) := by
  have hfits := h.fits_at hi
  have hmanaged := hfits.unmanaged rfl
  refine h.keep rfl (fun _ hm => hm)
    (fun _ => (fits_handler rfl (by simp) rfl).mem_set rfl) rfl
    (fun _ => h.unleased (.inl hmanaged)) ?_
  exact told_of_reports (fun m hm => hfits.seen m (mem_toList.mpr hm))
    (hfits.sound settlement rfl) hcond.2

theorem Truthful.created {k : Nat} {id : String}
    (hcond : s.row.status ≠ .failed ∧ s.row.status ≠ .cancelled) (hagent : s.agent = none) :
    Truthful { s with agent := some ⟨id, .created, ""⟩,
                      requests := s.requests.answer k (.migration ⟨id, .created, ""⟩) } := by
  -- without a migration nothing has been seen and nothing has completed
  have hblind : ∀ m, ¬ Saw s.agent m := by
    rintro m ⟨found, hfound, -⟩
    rw [hagent] at hfound
    cases hfound
  refine ⟨fun m hm => ?_, fun task htask => ?_, h.unleased, ?_⟩
  · obtain ⟨j, hj⟩ := hm
    rcases Requests.reply_of_answer hj with hold | ⟨-, hnew⟩
    · exact absurd (h.reported m ⟨j, hold⟩) (hblind m)
    · cases hnew
      exact ⟨_, rfl, fun _ => rfl⟩
  · have hfits := h.fits task htask
    exact ⟨fun m hm => absurd (hfits.seen m hm) (hblind m), hfits.sound, hfits.unmanaged⟩
  · have htold := h.told
    show Told s.row.status _
    cases hstatus : s.row.status with
    | queued | running => trivial
    | completed =>
      rw [hstatus, hagent] at htold
      obtain ⟨found, hfound, -⟩ := htold
      cases hfound
    | failed => exact absurd hstatus hcond.1
    | cancelled => exact absurd hstatus hcond.2

theorem Truthful.replied {k : Nat} {reply : Reply}
    (hreply : ∀ m, reply = .migration m → s.agent = some m) :
    Truthful { s with requests := s.requests.answer k reply } := by
  refine ⟨fun m hm => ?_, fun task htask => ?_, h.unleased, h.told⟩
  · obtain ⟨j, hj⟩ := hm
    rcases Requests.reply_of_answer hj with hold | ⟨-, hnew⟩
    · exact h.reported m ⟨j, hold⟩
    · exact ⟨m, hreply m hnew.symm, fun _ => rfl⟩
  · have hfits := h.fits task htask
    exact ⟨hfits.seen, hfits.sound, hfits.unmanaged⟩

theorem Truthful.moved (hagent : s.agent = some m) (hmove : canTransition m.stage stage = true) :
    Truthful { s with agent := some { m with stage, failureReason := reason } } := by
  have hsaw : ∀ {seen}, Saw s.agent seen →
      Saw (some { m with stage, failureReason := reason }) seen :=
    fun hs => (hagent ▸ hs : Saw (some m) _).moved hmove
  refine ⟨fun seen hm => hsaw (h.reported seen hm), fun task htask => ?_, h.unleased,
    (hagent ▸ h.told : Told _ (some m)).moved hmove⟩
  have hfits := h.fits task htask
  exact ⟨fun seen hm => hsaw (hfits.seen seen hm), hfits.sound, hfits.unmanaged⟩

end

theorem Change.truthful (hc : Change s a t) (hcond : s.SettlesTruly a) (h : Truthful s) :
    Truthful t := by
  cases hc with
  | tick => exact h.keep rfl (fun _ hm => hm) (fun _ => .inl) rfl h.unleased h.told
  | claimed hclaim => exact h.claimed hclaim ⟨nofun, nofun, nofun⟩
  | @spawned _ point hpoint =>
    have hfits : s.Fits (.handler point) := by
      rcases hpoint with rfl | rfl <;> exact fits_handler rfl (by simp) rfl
    exact h.keep rfl (fun _ hm => hm) (fun _ => hfits.mem_spawn rfl) rfl h.unleased h.told
  | sent =>
    exact h.keep rfl (fun _ hm => reported_of_send (.inr ⟨_, rfl⟩) hm) (fun _ => .inl) rfl
      h.unleased h.told
  | worked hi hw hr =>
    refine h.move hr ⟨fun m hm => ?_, hw.sound, nofun⟩
    exact (hw.seen m hm).elim ((h.fits_at hi).seen m) (h.reported m)
  | @wrote i w write ok endpoint row hi hpoint hrow =>
    cases row with
    | none => exact h.move (.inl rfl) ((h.fits_at hi).next write none)
    | some row =>
      obtain ⟨rfl, happly⟩ := ite_none_right_eq_some.mp hrow.symm
      exact h.wrote hi hpoint (hcond _ hi) happly
  | handled hi hp hr =>
    refine h.move hr ⟨fun m hm => h.reported m (hp.seen m hm), hp.sound, fun hu => ?_⟩
    exact (hp.unmanaged hu).elim id (h.fits_at hi).unmanaged
  | settled hi => exact h.settled hi (hcond _ hi)
  | requested hi hrow =>
    have hkept := requestManagedMigrationCancel_ok hrow
    subst hkept
    exact h.keep rfl (fun _ hm => hm)
      (fun _ => (fits_handler rfl (by simp) rfl).mem_set rfl) rfl
      h.unleased h.told
  | created hcall hagent => exact h.created (hcond hcall hagent) hagent
  | replied hreply => exact h.replied hreply
  | moved hagent hmove => exact h.moved hagent hmove

theorem initial_truthful (managed dispatched : Bool) : Truthful (initial managed dispatched) := by
  refine ⟨fun m hm => ?_, fun task htask => ?_, fun _ => rfl, trivial⟩
  · obtain ⟨k, hk⟩ := hm
    cases hk
  · cases managed <;> cases dispatched <;> simp [initial] at htask
    subst htask
    exact ⟨nofun, nofun, fun _ => rfl⟩

theorem Truthful.status_eq (h : Truthful s) (hcond : s.SettlesTruly a)
    (hdone : s.row.status.active = false) (hc : Change s a t) : t.row.status = s.row.status := by
  cases hc with
  | tick | spawned | sent | worked | handled | created | replied | moved => rfl
  | claimed hclaim =>
    obtain ⟨-, -, hactive, -⟩ := claimNextManagedMigration_ok hclaim
    rw [hdone] at hactive
    cases hactive
  | @wrote i w write ok endpoint row hi hpoint hrow =>
    cases row with
    | none => rfl
    | some row =>
      obtain ⟨-, happly⟩ := ite_none_right_eq_some.mp hrow.symm
      have hleased := (Write.apply_ok happly).leased
      rw [h.unleased (.inr hdone)] at hleased
      cases hleased
  | settled hi =>
    have hsame := (hcond _ hi).1.resolve_left (by simp [hdone])
    exact hsame.symm
  | requested hi hrow => rw [requestManagedMigrationCancel_ok hrow]; rfl

/-- In a run whose settlements are true when written, the status is true of the agent's migration at
every time, and a settled row keeps its status. -/
theorem job_status_true {managed dispatched : Bool} {run later : List Action}
    (hmeets : Meets step SettlesTruly (initial managed dispatched) (run ++ later))
    (hrun : exec step (initial managed dispatched) run = some s)
    (hlater : exec step s later = some t) :
    Told s.row.status s.agent ∧
      (s.row.status.active = false → t.row.status = s.row.status) := by
  obtain ⟨hbefore, hafter⟩ := hmeets.append hrun
  have hs : Truthful s :=
    exec_invariant Truthful (fun _ _ _ hinv hcond hstep => (step_change hstep).truthful hcond hinv)
      (initial_truthful managed dispatched) hbefore hrun
  refine ⟨hs.told, fun hdone => ?_⟩
  have ht : Truthful t ∧ t.row.status = s.row.status :=
    exec_invariant (fun m => Truthful m ∧ m.row.status = s.row.status)
      (fun m a n hinv hcond hstep =>
        have hc := step_change hstep
        ⟨hc.truthful hcond hinv.1, (hinv.1.status_eq hcond (hinv.2 ▸ hdone) hc).trans hinv.2⟩)
      ⟨hs, rfl⟩ hafter hlater
  exact ht.2

def settledByWorker : List Action :=
  [.claim "worker", .advance 0 true true, .serve 0 (.ok "m"), .answer 0, .advance 0 true true,
    .advance 0 true true, .agent .failed "lost", .serve 1 (.ok ""), .answer 0, .advance 0 true true]

theorem settledByWorker_true : ∃ s t,
    Meets step SettlesTruly (initial true false) (settledByWorker ++ [.tick 60, .cancel]) ∧
    exec step (initial true false) settledByWorker = some s ∧
    exec step s [.tick 60, .cancel] = some t ∧ s.row.status = .failed ∧
      Told s.row.status s.agent ∧ t.row.status = .failed := by
  have hmeets : Meets step SettlesTruly (initial true false)
      (settledByWorker ++ [.tick 60, .cancel]) := by decide
  obtain ⟨s, hs, hfailed, hsome⟩ : ∃ s, exec step (initial true false) settledByWorker = some s ∧
      s.row.status = .failed ∧ (exec step s [.tick 60, .cancel]).isSome := by decide
  obtain ⟨t, ht⟩ := isSome_iff_exists.mp hsome
  obtain ⟨htold, hkept⟩ := job_status_true hmeets hs ht
  exact ⟨s, t, hmeets, hs, ht, hfailed, htold, (hkept (by rw [hfailed]; rfl)).trans hfailed⟩

def cancelledEarly : List Action :=
  [.claim "worker", .advance 0 true true, .serve 0 (.ok "m"), .answer 0, .advance 0 true true,
    .cancel, .advance 1 true true, .advance 1 true true, .advance 0 true true, .serve 1 (.ok ""),
    .answer 0, .advance 0 true true]

def stalePass : List Action :=
  [.advance 0 true true, .serve 0 (.ok "m"), .poll, .advance 1 true true, .serve 1 (.ok ""),
    .answer 1, .agent .failed "lost", .poll, .advance 2 true true, .serve 2 (.ok ""), .answer 2,
    .advance 2 true true]

/-- A cancelled row can have a live migration, and a stale pass revives a settled row. -/
theorem cancelled_row_live_and_settled_row_revived :
    (∃ s m, exec step (initial true false) cancelledEarly = some s ∧ s.row.status = .cancelled ∧
      s.agent = some m ∧ m.stage.terminal = false) ∧
    ∃ s t, exec step (initial false true) stalePass = some s ∧ s.row.status = .failed ∧
      s.step (.advance 1 true true) = some t ∧ t.row.status = .running := by
  simp only [exists_and_left]
  decide

end System

end Shiftgate.Jobs
