import Shiftgate.Jobs.Tasks

/-! What a step of the job system can do, said once: which task moves and what it keeps, which
statement changes the row, what the agent reports. -/

namespace Shiftgate.Jobs

open Library Migration List Option HandlerPoint

def Reports (status : JobStatus) (seen : Option AgentMigration) : Prop :=
  (∃ m ∈ seen, migrationJobStatus m.stage = status) ∨ status = .failed ∨ status = .cancelled

def Worker.snapshots (w : Worker) : List AgentMigration :=
  w.result.toList ++ match w.point with
    | .writing (.finish _ seen _) => seen.toList
    | _ => []

def Worker.Sound (w : Worker) : Prop :=
  ∀ status seen reason, w.point = .writing (.finish status seen reason) → Reports status seen

def HandlerPoint.snapshots : HandlerPoint → List AgentMigration
  | .settling settlement => settlement.seen.toList
  | _ => []

def HandlerPoint.Sound (point : HandlerPoint) : Prop :=
  ∀ settlement, point = .settling settlement →
    (∃ m ∈ settlement.seen, migrationJobStatus m.stage = settlement.status) ∨
      settlement.status = .failed ∨ settlement.status = .cancelled

def HandlerPoint.unmanaged : HandlerPoint → Bool
  | .listing _ _ | .getting _ _ | .dispatch | .creating _ | .cancelling _ _ | .settling _ => true
  | .poll | .cancel | .requesting | .done => false

variable {now k : Nat} {endpoint : Bool} {status : JobStatus} {reason : String} {m : AgentMigration}
  {reply : Reply} {next : HandlerNext}

theorem Write.apply_ok {write : Write} {w : Worker} {row row' : JobRow}
    (h : write.apply w row now = some row') : LeasedWrite row w.job write.status row' := by
  cases write with
  | retry | assign | renew | progress | finish => exact updateManagedMigration_ok h

theorem Write.next_quiet (write : Write) (w : Worker) (row : Option JobRow) :
    (write.next w row).snapshots = w.result.toList ∧ (write.next w row).Sound := by
  cases write with
  | retry | renew | progress | finish => exact ⟨by simp [Worker.snapshots, Write.next], nofun⟩
  | assign =>
    cases row with
    | none | some => exact ⟨by simp [Worker.snapshots, Write.next], nofun⟩

namespace System

def Reported (s : System) (m : AgentMigration) : Prop :=
  ∃ k, s.requests.reply k = some (.migration m)

/-- A worker's step that writes nothing: it keeps its claim, keeps its record but for a refresh,
and learns only what the agent reported. -/
structure Works (s : System) (a : Action) (i : Nat) (w w' : Worker) : Prop where
  claim : w'.claim = w.claim
  live : w.point ≠ .done
  lease : w'.job.leaseOwner = w.job.leaseOwner ∨
    w.point = .refresh ∧ (∃ endpoint, a = .advance i true endpoint) ∧ w'.job = s.row
  seen : ∀ m ∈ w'.snapshots, m ∈ w.snapshots ∨ s.Reported m
  sound : w'.Sound

structure Handles (s : System) (point point' : HandlerPoint) : Prop where
  seen : ∀ m ∈ point'.snapshots, s.Reported m
  sound : point'.Sound
  unmanaged : point'.unmanaged = true → s.row.managed = false ∨ point.unmanaged = true

inductive Change (s : System) : Action → System → Prop
  | tick {seconds : Nat} : Change s (.tick seconds) { s with now := s.now + seconds }
  | claimed {owner : String} {row : JobRow}
      (hclaim : claimNextManagedMigration s.row owner migrationWorkerLease s.now = some row) :
      Change s (.claim owner) (({ s with row } : System).spawn
        (.worker { claim := row.attemptCount, job := row, agentID := "", result := none,
                   point := .start }))
  | spawned {a : Action} {point : HandlerPoint} (hpoint : point = .poll ∨ point = .cancel) :
      Change s a (s.spawn (.handler point))
  | sent {a : Action} {call : Call} : Change s a { s with requests := s.requests.send call }
  | worked {a : Action} {i : Nat} {w w' : Worker} {requests : Requests Call Reply}
      (hi : s.tasks[i]? = some (.worker w)) (hw : s.Works a i w w')
      (hr : requests = s.requests ∨ ∃ call, requests = s.requests.send call) :
      Change s a (({ s with requests } : System).setTask i (.worker w'))
  | wrote {i : Nat} {w : Worker} {write : Write} {ok endpoint : Bool} {row : Option JobRow}
      (hi : s.tasks[i]? = some (.worker w)) (hpoint : w.point = .writing write)
      (hrow : row = if ok then write.apply w s.row s.now else none) :
      Change s (.advance i ok endpoint)
        (({ s with row := row.getD s.row } : System).setTask i (.worker (write.next w row)))
  | handled {a : Action} {i : Nat} {point point' : HandlerPoint} {requests : Requests Call Reply}
      (hi : s.tasks[i]? = some (.handler point)) (hp : s.Handles point point')
      (hr : requests = s.requests ∨ ∃ call, requests = s.requests.send call) :
      Change s a (({ s with requests } : System).setTask i (.handler point'))
  | settled {i : Nat} {settlement : Settlement} {endpoint : Bool}
      (hi : s.tasks[i]? = some (.handler (.settling settlement))) :
      Change s (.advance i true endpoint)
        (({ s with row := updateMigrationStatus s.row settlement.status settlement.progressAgentID
                            settlement.reason } : System).setTask i (.handler .done))
  | requested {i : Nat} {endpoint : Bool} {row : JobRow}
      (hi : s.tasks[i]? = some (.handler .requesting))
      (hrow : requestManagedMigrationCancel s.row = some row) :
      Change s (.advance i true endpoint) (({ s with row } : System).setTask i (.handler .done))
  | created {k : Nat} {id : String} (hcall : s.requests.pending k = some .create)
      (hagent : s.agent = none) :
      Change s (.serve k (.ok id))
        { s with agent := some ⟨id, .created, ""⟩,
                 requests := s.requests.answer k (.migration ⟨id, .created, ""⟩) }
  | replied {a : Action} {k : Nat} {reply : Reply}
      (hreply : ∀ m, reply = .migration m → s.agent = some m) :
      Change s a { s with requests := s.requests.answer k reply }
  | moved {m : AgentMigration} {stage : Stage} {reason : String} (hagent : s.agent = some m)
      (hmove : canTransition m.stage stage = true) :
      Change s (.agent stage reason)
        { s with agent := some { m with stage, failureReason := reason } }

variable {s t : System} {a : Action} {i : Nat} {w w' : Worker} {point point' : HandlerPoint}

theorem mem_setTask {task new : Task} (h : task ∈ (s.setTask i new).tasks) :
    task ∈ s.tasks ∨ task = new :=
  mem_or_eq_of_mem_set h

theorem mem_spawn {task new : Task} (h : task ∈ (s.spawn new).tasks) :
    task ∈ s.tasks ∨ task = new := by
  simpa [spawn] using h

theorem Works.refresh {wait : Nat → WorkerPoint} (hp : w.point = .refresh)
    (hwait : ∀ status seen reason, wait k ≠ .writing (.finish status seen reason)) :
    s.Works (.advance i true endpoint) i w { w with job := s.row, point := wait k } where
  claim := rfl
  live := by simp [hp]
  lease := .inr ⟨hp, ⟨endpoint, rfl⟩, rfl⟩
  seen := by
    intro m hm
    refine .inl ?_
    simp only [Worker.snapshots, mem_append] at hm ⊢
    exact .inl (hm.resolve_right (not_mem_nil))
  sound := fun _ _ _ h => absurd h (hwait _ _ _)

theorem Works.goes {agentID : String} {point : WorkerPoint} (hlive : w.point ≠ .done)
    (hpoint : ∀ status seen reason, point ≠ .writing (.finish status seen reason)) :
    s.Works a i w { w with agentID, point } where
  claim := rfl
  live := hlive
  lease := .inl rfl
  seen := by
    intro m hm
    refine .inl ?_
    simp only [Worker.snapshots, mem_append] at hm ⊢
    exact .inl (hm.resolve_right (not_mem_nil))
  sound := fun _ _ _ h => absurd h (hpoint _ _ _)

section

variable (hlive : w.point ≠ .done)

include hlive

theorem Works.settles {seen : Option AgentMigration}
    (hstatus : status = .failed ∨ status = .cancelled) (hseen : seen = none ∨ seen = w.result) :
    s.Works a i w { w with point := .writing (.finish status seen reason) } where
  claim := rfl
  live := hlive
  lease := .inl rfl
  seen := by
    intro m hm
    refine .inl ?_
    simp only [Worker.snapshots, mem_append] at hm ⊢
    rcases hseen with rfl | rfl
    · simpa using Or.inl hm
    · exact .inl (or_self_iff.mp hm)
  sound := by
    intro status' seen' reason' h
    cases h
    exact .inr hstatus

theorem Works.created (hm : s.Reported m) :
    s.Works a i w { w with agentID := m.id, job := { w.job with agentMigrationID := m.id },
                           result := some m, point := .writing .assign } where
  claim := rfl
  live := hlive
  lease := .inl rfl
  seen := by
    intro m' hm'
    simp only [Worker.snapshots, toList_some, append_nil, mem_singleton] at hm'
    exact .inr (hm' ▸ hm)
  sound := nofun

theorem Works.polled (hm : s.Reported m) :
    s.Works a i w { w with
      result := some m
      point := .writing (if (migrationJobStatus m.stage).active then .progress
        else .finish (migrationJobStatus m.stage) (some m) m.failureReason) } where
  claim := rfl
  live := hlive
  lease := .inl rfl
  seen := by
    intro m' hm'
    refine .inr ?_
    by_cases hactive : (migrationJobStatus m.stage).active = true
    · simp only [Worker.snapshots, hactive, if_true, toList_some, append_nil, mem_singleton] at hm'
      exact hm' ▸ hm
    · simp only [Worker.snapshots, hactive, Bool.false_eq_true, if_false, toList_some,
        mem_append, mem_singleton, or_self_iff] at hm'
      exact hm' ▸ hm
  sound := by
    intro status seen reason h
    by_cases hactive : (migrationJobStatus m.stage).active = true
    · simp [hactive] at h
    · simp only [hactive, Bool.false_eq_true, if_false, WorkerPoint.writing.injEq,
        Write.finish.injEq] at h
      obtain ⟨rfl, rfl, -⟩ := h
      exact .inl ⟨m, rfl, rfl⟩

theorem Works.unpolled {message : String} :
    s.Works a i w { w with result := none, point := .writing (.renew message) } :=
  ⟨rfl, hlive, .inl rfl, by simp [Worker.snapshots], nofun⟩

end

theorem work_change {ok : Bool} (hi : s.tasks[i]? = some (.worker w))
    (h : s.work i w ok endpoint = some t) : Change s (.advance i ok endpoint) t := by
  unfold work at h
  cases hp : w.point with
  | start =>
    have hlive : w.point ≠ .done := by simp [hp]
    simp only [hp] at h
    split_ifs at h
    · cases h
      exact .worked hi (.goes hlive (by simp)) (.inl rfl)
    · cases h
      exact .worked hi (.settles hlive (.inr rfl) (.inl rfl)) (.inl rfl)
    · cases h
      exact .worked hi (.settles hlive (.inl rfl) (.inl rfl)) (.inl rfl)
    · cases h
      exact .worked hi (.goes hlive (by simp)) (.inr ⟨_, rfl⟩)
    · cases h
      exact .worked hi (.goes hlive (by simp)) (.inl rfl)
  | writing write =>
    simp only [hp] at h
    cases h
    exact .wrote hi hp rfl
  | refresh =>
    have hlive : w.point ≠ .done := by simp [hp]
    simp only [hp] at h
    cases ok with
    | true =>
      simp only [if_true] at h
      split_ifs at h
      · cases h
        exact .worked hi (.refresh hp (by simp)) (.inr ⟨_, rfl⟩)
      · cases h
        exact .worked hi (.refresh hp (by simp)) (.inr ⟨_, rfl⟩)
    | false =>
      simp only [Bool.false_eq_true, if_false] at h
      split_ifs at h
      · cases h
        exact .worked hi (.goes hlive (by simp)) (.inr ⟨_, rfl⟩)
      · cases h
        exact .worked hi (.goes hlive (by simp)) (.inr ⟨_, rfl⟩)
  | waiting =>
    simp only [hp] at h
    cases h
    exact .worked hi (.goes (by simp [hp]) (by cases ok <;> simp)) (.inl rfl)
  | creating | cancelling | polling | done =>
    simp only [hp] at h
    cases h

theorem answered_works (hreply : ∀ m, reply = .migration m → s.Reported m)
    (h : w.answered reply = some w') : s.Works a i w w' := by
  unfold Worker.answered at h
  cases hp : w.point with
  | creating k =>
    have hlive : w.point ≠ .done := by simp [hp]
    cases reply with
    | migration m =>
      simp only [hp] at h
      cases h
      exact .created hlive (hreply m rfl)
    | absent | accepted | refused | failed =>
      simp only [hp] at h
      cases h
      exact .goes hlive (by simp)
  | cancelling k =>
    have hlive : w.point ≠ .done := by simp [hp]
    cases reply with
    | accepted =>
      simp only [hp] at h
      cases h
      exact .settles hlive (.inr rfl) (.inr rfl)
    | migration | absent | refused | failed =>
      simp only [hp] at h
      cases h
      exact .goes hlive (by simp)
  | polling k =>
    have hlive : w.point ≠ .done := by simp [hp]
    cases reply with
    | migration m =>
      simp only [hp] at h
      cases h
      exact .polled hlive (hreply m rfl)
    | absent | accepted | refused | failed =>
      simp only [hp] at h
      cases h
      exact .unpolled hlive
  | start | writing | refresh | waiting | done =>
    simp only [hp] at h
    cases h

def HandlerNext.To (next : HandlerNext) (P : HandlerPoint → Prop) : Prop :=
  match next with
  | .go point => P point
  | .ask _ wait => ∀ k, P (wait k)

theorem handlerNext_change (hi : s.tasks[i]? = some (.handler point))
    (hnext : HandlerNext.To next (s.Handles point)) : Change s a (s.handlerNext i next) := by
  cases next with
  | go point' => exact .handled hi hnext (.inl rfl)
  | ask call wait => exact .handled hi (hnext _) (.inr ⟨call, rfl⟩)

theorem Handles.goes (hsettle : ∀ settlement, point' ≠ .settling settlement)
    (hunmanaged : point'.unmanaged = true → s.row.managed = false ∨ point.unmanaged = true) :
    s.Handles point point' := by
  refine ⟨fun m hm => ?_, fun settlement h => absurd h (hsettle settlement), hunmanaged⟩
  cases point' with
  | settling settlement => exact absurd rfl (hsettle settlement)
  | poll | listing | getting | dispatch | creating | cancel | requesting | cancelling | done =>
    cases hm

theorem Handles.observes (hm : s.Reported m) (hpoint : point.unmanaged = true) :
    s.Handles point (.settling (.observed m)) := by
  refine ⟨fun m' hm' => ?_, fun settlement h => ?_, fun _ => .inr hpoint⟩
  · simp only [snapshots, Settlement.observed, toList_some, mem_singleton] at hm'
    exact hm' ▸ hm
  · cases h
    exact .inl ⟨m, rfl, rfl⟩

theorem Handles.blind (hstatus : status = .failed ∨ status = .cancelled)
    (hpoint : point.unmanaged = true) : s.Handles point (.settling (.blind status reason)) := by
  refine ⟨nofun, fun settlement h => ?_, fun _ => .inr hpoint⟩
  cases h
  exact .inr hstatus

theorem pollSeen_to {job : JobRow} (hm : s.Reported m) (hpoint : point.unmanaged = true) :
    HandlerNext.To (pollSeen job m) (s.Handles point) := by
  unfold pollSeen
  split
  · exact fun k => .goes (by simp) fun _ => .inr hpoint
  · exact .observes hm hpoint

theorem answered_to (hreply : ∀ m, reply = .migration m → s.Reported m)
    (h : point.answered reply now = some next) : HandlerNext.To next (s.Handles point) := by
  have done : HandlerNext.To (.go .done) (s.Handles point) :=
    .goes (by simp) (by simp [HandlerPoint.unmanaged])
  unfold HandlerPoint.answered at h
  cases hp : point with
  | listing k job =>
    subst hp
    cases reply with
    | migration m =>
      cases h
      exact pollSeen_to (hreply m rfl) rfl
    | absent =>
      simp only at h
      split_ifs at h
      · cases h
        exact .blind (.inl rfl) rfl
      · cases h
        exact done
    | accepted | refused | failed =>
      cases h
      exact done
  | getting k job =>
    subst hp
    cases reply with
    | migration m =>
      cases h
      exact pollSeen_to (hreply m rfl) rfl
    | absent | accepted | refused | failed =>
      cases h
      exact done
  | creating k =>
    subst hp
    cases reply with
    | migration m =>
      cases h
      exact .observes (hreply m rfl) rfl
    | refused =>
      cases h
      exact .blind (.inl rfl) rfl
    | absent | accepted | failed =>
      cases h
      exact done
  | cancelling k reason =>
    subst hp
    cases reply with
    | accepted =>
      cases h
      exact .blind (.inr rfl) rfl
    | migration | absent | refused | failed =>
      cases h
      exact done
  | poll | dispatch | cancel | requesting | settling | done =>
    subst hp
    cases h

theorem reads_to (h : point.reads s.row = some next) : HandlerNext.To next (s.Handles point) := by
  have done : HandlerNext.To (.go .done) (s.Handles point) :=
    .goes (by simp) (by simp [unmanaged])
  cases hp : point with
  | poll =>
    subst hp
    simp only [reads] at h
    split_ifs at h with hrow
    · cases h
      exact done
    · cases h
      exact fun k => .goes (by simp) fun _ => .inl (by simpa using fun hm => hrow (.inl hm))
    · cases h
      exact fun k => .goes (by simp) fun _ => .inl (by simpa using fun hm => hrow (.inl hm))
  | cancel =>
    subst hp
    simp only [reads] at h
    split_ifs at h with _ hmanaged
    · cases h
      exact done
    · cases h
      exact done
    · cases h
      exact .goes (by simp) (by simp [unmanaged])
    · cases h
      exact done
    · cases h
      exact fun k => .goes (by simp) fun _ => .inl (by simpa using hmanaged)
  | dispatch =>
    subst hp
    cases h
    exact fun k => .goes (by simp) fun _ => .inr rfl
  | listing | getting | creating | requesting | cancelling | settling | done =>
    subst hp
    cases h

theorem handle_change {ok : Bool} (hi : s.tasks[i]? = some (.handler point))
    (h : s.handle i point ok = some t) : Change s (.advance i ok endpoint) t := by
  have done : s.Handles point .done := .goes (by simp) (by simp [unmanaged])
  have reads : ∀ {t}, (if ok then (point.reads s.row).map (s.handlerNext i)
      else (point.reads s.row).map fun _ => s.setTask i (.handler .done)) = some t →
      Change s (.advance i ok endpoint) t := by
    intro t h
    split_ifs at h
    · obtain ⟨next, hnext, rfl⟩ := map_eq_some_iff.mp h
      exact handlerNext_change hi (reads_to hnext)
    · obtain ⟨next, -, rfl⟩ := map_eq_some_iff.mp h
      exact .handled hi done (.inl rfl)
  unfold handle at h
  cases hp : point with
  | settling settlement =>
    subst hp
    cases ok with
    | true =>
      cases h
      exact .settled hi
    | false =>
      cases h
      exact .handled hi done (.inl rfl)
  | requesting =>
    subst hp
    cases ok with
    | true =>
      cases hr : requestManagedMigrationCancel s.row with
      | none =>
        simp only [hr, if_true, getD_none] at h
        cases h
        exact .handled hi done (.inl rfl)
      | some row =>
        simp only [hr, if_true, getD_some] at h
        cases h
        exact .requested hi hr
    | false =>
      cases h
      exact .handled hi done (.inl rfl)
  | poll | listing | getting | dispatch | creating | cancel | cancelling | done =>
    subst hp
    exact reads h

theorem answered_change {task : Task} (hi : s.tasks[i]? = some task)
    (hreply : ∀ m, reply = .migration m → s.Reported m) (h : s.answered i reply task = some t) :
    Change s a t := by
  cases task with
  | worker w =>
    obtain ⟨w', hw, rfl⟩ := map_eq_some_iff.mp h
    exact .worked hi (answered_works hreply hw) (.inl rfl)
  | handler point =>
    obtain ⟨next, hnext, rfl⟩ := map_eq_some_iff.mp h
    exact handlerNext_change hi (answered_to hreply hnext)

theorem serve_change {id : String} {call : Call} (hcall : s.requests.pending k = some call) :
    Change s (.serve k (.ok id))
      { s with agent := (serveCall s.agent id call).1,
               requests := s.requests.answer k (serveCall s.agent id call).2 } := by
  cases hagent : s.agent with
  | none =>
    cases call with
    | create => exact .created hcall hagent
    | list | get =>
      have h : Change s (.serve k (.ok id)) { s with requests := s.requests.answer k .absent } :=
        .replied (by simp)
      simpa [serveCall, hagent] using h
    | cancel =>
      have h : Change s (.serve k (.ok id)) { s with requests := s.requests.answer k .failed } :=
        .replied (by simp)
      simpa [serveCall, hagent] using h
  | some m =>
    have h : Change s (.serve k (.ok id))
        { s with requests := s.requests.answer k (serveCall s.agent id call).2 } := by
      refine .replied fun m' hm' => ?_
      cases call with
      | create | list =>
        simp only [serveCall, hagent, Reply.migration.injEq] at hm'
        rw [hagent, hm']
      | get wanted =>
        simp only [serveCall, hagent] at hm'
        split_ifs at hm'
        cases hm'
        exact hagent
      | cancel wanted =>
        simp only [serveCall, hagent] at hm'
        split_ifs at hm'
    have hsame : (serveCall (some m) id call).1 = s.agent := by
      rw [hagent]
      cases call <;> rfl
    rw [hsame, ← hagent]
    exact h

theorem step_change (h : s.step a = some t) : Change s a t := by
  cases a with
  | tick seconds =>
    cases h
    exact .tick
  | claim owner =>
    obtain ⟨row, hrow, rfl⟩ := map_eq_some_iff.mp h
    exact .claimed hrow
  | poll =>
    cases h
    exact .spawned (.inl rfl)
  | cancel =>
    cases h
    exact .spawned (.inr rfl)
  | relay =>
    obtain ⟨-, ht⟩ := ite_none_left_eq_some.mp h
    cases ht
    exact .sent
  | advance i ok endpoint =>
    simp only [step] at h
    split at h
    · exact work_change ‹_› h
    · exact handle_change ‹_› h
    · cases h
  | answer i =>
    simp only [step] at h
    split at h
    · rename_i task hi
      obtain ⟨reply, hreply, ht⟩ := bind_eq_some_iff.mp h
      obtain ⟨k, -, hk⟩ := bind_eq_some_iff.mp hreply
      exact answered_change hi (fun m hm => ⟨k, hm ▸ hk⟩) ht
    · cases h
  | giveUp i =>
    simp only [step] at h
    split at h
    · rename_i task hi
      obtain ⟨k, -, ht⟩ := bind_eq_some_iff.mp h
      exact answered_change hi (by simp) ht
    · cases h
  | serve k outcome =>
    obtain ⟨call, hcall, rfl⟩ := map_eq_some_iff.mp h
    cases outcome with
    | ok id => exact serve_change hcall
    | refuse | fail => exact .replied (by simp)
  | agent stage reason =>
    simp only [step] at h
    split at h
    · rename_i m hagent
      obtain ⟨hmove, ht⟩ := ite_none_right_eq_some.mp h
      cases ht
      exact .moved hagent hmove
    · cases h

end System

end Shiftgate.Jobs
