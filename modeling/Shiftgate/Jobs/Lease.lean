import Shiftgate.Jobs.Moves

/-! The lease of a managed job as a fence: when may an execution of an earlier claim still write the
row? The guard of `UpdateManagedMigration` compares owners, so the fence holds as long as no two
executions carry the owner in force. -/

namespace Shiftgate.Jobs

open Library Write

def Task.worker? : Task → Option Worker
  | .worker w => some w
  | .handler _ => none

def Action.task : Action → Option Nat
  | .advance i _ _ | .answer i | .giveUp i => some i
  | .tick _ | .claim _ | .poll | .cancel | .relay | .serve _ _ | .agent _ _ => none

@[simp] theorem Write.next_claim (write : Write) (w : Worker) (row : Option JobRow) :
    (write.next w row).claim = w.claim := by
  cases write <;> rfl

theorem Write.next_job (write : Write) (w : Worker) (row : Option JobRow) :
    (write.next w row).job = w.job ∨ row = some (write.next w row).job := by
  cases write with
  | retry | assign | renew | finish => exact .inl rfl
  | progress =>
    cases row with
    | none => exact .inl rfl
    | some row' => exact .inr rfl

namespace System

/-- No execution under way carries the owner of a claim, and an execution refreshes only while its
claim is the last one or the row has no lease. -/
def OwnsItsLease (s : System) : Action → Prop
  | .claim owner => ∀ task ∈ s.tasks, ∀ w ∈ task.worker?,
      w.point ≠ .done → w.job.leaseOwner ≠ some owner
  | .advance i true _ => ∀ task ∈ s.tasks[i]?, ∀ w ∈ task.worker?,
      w.point = .refresh → w.claim = s.row.attemptCount ∨ s.row.leaseOwner = none
  | _ => True

instance (s : System) : ∀ a, Decidable (OwnsItsLease s a)
  | .claim _ => inferInstanceAs (Decidable (∀ task ∈ (_ : List Task), ∀ w ∈ (_ : Option Worker),
      _ ≠ _ → _ ≠ _))
  | .advance _ true _ => inferInstanceAs (Decidable (∀ task ∈ (_ : Option Task),
      ∀ w ∈ (_ : Option Worker), _ = _ → _ ∨ _))
  | .advance _ false _ | .tick _ | .poll | .cancel | .relay | .answer _ | .giveUp _ | .serve _ _
  | .agent _ _ => isTrue trivial

def Holder (s : System) (w : Worker) : Prop :=
  w.claim ≤ s.row.attemptCount ∧
    (w.point ≠ .done → s.row.leaseOwner ≠ none → w.job.leaseOwner = s.row.leaseOwner →
      w.claim = s.row.attemptCount)

structure Fenced (s : System) : Prop where
  named : s.row.leaseOwner ≠ some ""
  holder : ∀ w, .worker w ∈ s.tasks → s.Holder w

variable {s t : System} {a : Action} {w : Worker}

variable {write : Write} {row : JobRow} {i : Nat}

theorem Fenced.claim_of_apply {now : Nat} (h : Fenced s) (hw : .worker w ∈ s.tasks)
    (hlive : w.point ≠ .done) (hrow : write.apply w s.row now = some row) :
    w.claim = s.row.attemptCount := by
  have hleased := (apply_ok hrow).leased
  have hsame : w.job.leaseOwner = s.row.leaseOwner := by
    cases howner : w.job.leaseOwner with
    | none =>
      rw [JobRow.owner, howner] at hleased
      exact absurd hleased h.named
    | some owner =>
      rw [JobRow.owner, howner] at hleased
      exact hleased.symm
  exact (h.holder w hw).2 hlive (by simp [hleased]) hsame

theorem Fenced.keep (h : Fenced s) (howner : t.row.leaseOwner = s.row.leaseOwner)
    (hcount : t.row.attemptCount = s.row.attemptCount)
    (hworkers : ∀ w, .worker w ∈ t.tasks → .worker w ∈ s.tasks ∨ s.Holder w) : Fenced t := by
  refine ⟨howner ▸ h.named, fun w hw => ?_⟩
  have hold : s.Holder w := (hworkers w hw).elim (h.holder w) id
  simpa only [Holder, howner, hcount] using hold

theorem Fenced.handler {point : HandlerPoint} (h : Fenced s)
    (howner : t.row.leaseOwner = s.row.leaseOwner)
    (hcount : t.row.attemptCount = s.row.attemptCount) (htasks : t.tasks = s.tasks) :
    Fenced (t.setTask i (.handler point)) := by
  refine h.keep howner hcount fun w hw => .inl ?_
  rcases mem_setTask hw with hold | hnew
  · exact htasks ▸ hold
  · cases hnew

theorem Fenced.claimed {owner : String} (h : Fenced s) (hcond : s.OwnsItsLease (.claim owner))
    (hclaim : claimNextManagedMigration s.row owner migrationWorkerLease s.now = some row) :
    Fenced (({ s with row } : System).spawn (.worker
      { claim := row.attemptCount, job := row, agentID := "", result := none,
        point := .start })) := by
  obtain ⟨hname, -, -, rfl⟩ := claimNextManagedMigration_ok hclaim
  refine ⟨by simpa [spawn] using hname, fun w hw => ?_⟩
  rcases mem_spawn hw with hold | hnew
  · -- an execution that was there before does not carry the new owner
    refine ⟨Nat.le_succ_of_le (h.holder w hold).1, fun hlive _ hsame => ?_⟩
    exact absurd hsame (hcond _ hold w rfl hlive)
  · cases hnew
    exact ⟨Nat.le_refl _, fun _ _ _ => rfl⟩

theorem Fenced.worked {w' : Worker} {requests : Requests Call Reply} (h : Fenced s)
    (hcond : s.OwnsItsLease a) (hi : s.tasks[i]? = some (.worker w)) (hw : s.Works a i w w') :
    Fenced (({ s with requests } : System).setTask i (.worker w')) := by
  refine h.keep rfl rfl fun x hx => ?_
  rcases mem_setTask hx with hold | hnew
  · exact .inl hold
  · cases hnew
    have hbefore := h.holder w (List.mem_of_getElem? hi)
    refine .inr ⟨hw.claim ▸ hbefore.1, fun _ hleased hsame => ?_⟩
    rw [hw.claim]
    rcases hw.lease with hkept | ⟨hrefresh, ⟨endpoint, rfl⟩, -⟩
    · exact hbefore.2 hw.live hleased (hkept ▸ hsame)
    · exact (hcond _ hi w rfl hrefresh).resolve_right hleased

theorem Fenced.wrote (h : Fenced s) (hi : s.tasks[i]? = some (.worker w)) (hlive : w.point ≠ .done)
    (hrow : write.apply w s.row s.now = some row) :
    Fenced (({ s with row } : System).setTask i (.worker (write.next w (some row)))) := by
  have hmem := List.mem_of_getElem? hi
  have hlast := h.claim_of_apply hmem hlive hrow
  have hwrite := apply_ok hrow
  by_cases hrunning : write.status = .running
  · have howner : row.leaseOwner = s.row.leaseOwner := by
      rw [hwrite.owner_eq, if_pos hrunning, hwrite.leased]
    refine h.keep howner hwrite.attempt_eq fun x hx => ?_
    rcases mem_setTask hx with hold | hnew
    · exact .inl hold
    · cases hnew
      refine .inr ⟨?_, fun _ _ _ => ?_⟩
      · rw [next_claim, hlast]
      · rw [next_claim, hlast]
  · have howner : row.leaseOwner = none := by rw [hwrite.owner_eq, if_neg hrunning]
    refine ⟨by simp [setTask, howner], fun x hx => ?_⟩
    refine ⟨?_, fun _ hleased => absurd howner hleased⟩
    rcases mem_setTask hx with hold | hnew
    · exact hwrite.attempt_eq ▸ (h.holder x hold).1
    · cases hnew
      rw [next_claim, hlast]
      exact hwrite.attempt_eq.ge

theorem Fenced.unwritten (h : Fenced s) (hi : s.tasks[i]? = some (.worker w))
    (hlive : w.point ≠ .done) : Fenced (s.setTask i (.worker (write.next w none))) := by
  have hbefore := h.holder w (List.mem_of_getElem? hi)
  have hjob : (write.next w none).job = w.job := (write.next_job w none).resolve_right nofun
  refine h.keep rfl rfl fun x hx => ?_
  rcases mem_setTask hx with hold | hnew
  · exact .inl hold
  · cases hnew
    refine .inr ⟨by rw [next_claim]; exact hbefore.1, fun _ hleased hsame => ?_⟩
    rw [next_claim]
    exact hbefore.2 hlive hleased (hjob ▸ hsame)

theorem Change.fenced (hc : Change s a t) (hcond : s.OwnsItsLease a) (h : Fenced s) : Fenced t := by
  cases hc with
  | tick | sent | created | replied | moved => exact ⟨h.named, h.holder⟩
  | claimed hclaim => exact h.claimed hcond hclaim
  | spawned =>
    refine h.keep rfl rfl fun w hw => .inl ?_
    exact (mem_spawn hw).resolve_right nofun
  | worked hi hw => exact h.worked hcond hi hw
  | @wrote i w write ok endpoint row hi hpoint hrow =>
    have hlive : w.point ≠ .done := by simp [hpoint]
    cases row with
    | none => exact h.unwritten hi hlive
    | some row =>
      obtain ⟨-, happly⟩ := Option.ite_none_right_eq_some.mp hrow.symm
      exact h.wrote hi hlive happly
  | handled | settled => exact h.handler rfl rfl rfl
  | requested hi hrow =>
    have hkept := requestManagedMigrationCancel_ok hrow
    exact h.handler (by rw [hkept]) (by rw [hkept]) rfl

theorem initial_fenced (managed dispatched : Bool) : Fenced (initial managed dispatched) := by
  refine ⟨nofun, fun w hw => ?_⟩
  cases managed <;> cases dispatched <;> simp [initial] at hw

theorem Fenced.row_eq (h : Fenced s) (hi : s.tasks[i]? = some (.worker w))
    (hearlier : w.claim < s.row.attemptCount) (htask : a.task = some i)
    (hstep : s.step a = some t) : t.row = s.row := by
  cases step_change hstep with
  | tick | spawned | sent | worked | handled | replied | moved => rfl
  | claimed | created => cases htask
  | @wrote j w' write ok endpoint row hj hpoint hrow =>
    cases htask
    obtain rfl : w = w' := by simpa [hi] using hj
    cases row with
    | none => rfl
    | some row =>
      obtain ⟨-, happly⟩ := Option.ite_none_right_eq_some.mp hrow.symm
      have hlast := h.claim_of_apply (List.mem_of_getElem? hi) (by simp [hpoint]) happly
      omega
  | settled hj | requested hj =>
    cases htask
    rw [hi] at hj
    cases hj

/-- In a run in which claims and refreshes keep to their own lease, no execution of an earlier claim
changes a row that has been claimed again. -/
theorem earlier_claim_never_writes {managed dispatched : Bool} {run : List Action} {i : Nat}
    (hmeets : Meets step OwnsItsLease (initial managed dispatched) run)
    (hrun : exec step (initial managed dispatched) run = some s)
    (hi : s.tasks[i]? = some (.worker w)) (hearlier : w.claim < s.row.attemptCount)
    (htask : a.task = some i) (hstep : s.step a = some t) : t.row = s.row := by
  have hfenced : Fenced s :=
    exec_invariant Fenced (fun _ _ _ hinv hcond hs => (step_change hs).fenced hcond hinv)
      (initial_fenced managed dispatched) hmeets hrun
  exact hfenced.row_eq hi hearlier htask hstep

def claimedAgain : List Action :=
  [.claim "first", .advance 0 true true, .serve 0 (.ok "m"), .answer 0, .advance 0 true true,
    .tick 60, .claim "second"]

def polledBefore : List Action :=
  [.claim "first", .advance 0 true true, .serve 0 (.ok "m"), .answer 0, .advance 0 true true,
    .advance 0 true true, .tick 60, .claim "second", .serve 1 (.ok ""), .answer 0]

theorem polledBefore_never_writes : ∃ s t w,
    Meets step OwnsItsLease (initial true false) polledBefore ∧
    exec step (initial true false) polledBefore = some s ∧ s.tasks[0]? = some (.worker w) ∧
    w.point = .writing .progress ∧ w.claim < s.row.attemptCount ∧
    s.step (.advance 0 true true) = some t ∧ t.row = s.row := by
  have hmeets : Meets step OwnsItsLease (initial true false) polledBefore := by decide
  obtain ⟨s, hs, task, htask, w, hw, rfl, hpoint, hearlier, hstep⟩ : ∃ s,
      exec step (initial true false) polledBefore = some s ∧ ∃ task ∈ s.tasks[0]?,
        ∃ w ∈ task.worker?, task = .worker w ∧ w.point = .writing .progress ∧
          w.claim < s.row.attemptCount ∧ (s.step (.advance 0 true true)).isSome := by
    decide
  obtain ⟨t, ht⟩ := Option.isSome_iff_exists.mp hstep
  exact ⟨s, t, w, hmeets, hs, htask, hpoint, hearlier, ht,
    earlier_claim_never_writes hmeets hs htask hearlier rfl ht⟩

def adoptedLease : List Action :=
  claimedAgain ++ [.advance 0 true true, .agent .failed "lost", .serve 1 (.ok ""), .answer 0]

theorem earlier_claim_releases_lease : ∃ s t w,
    exec step (initial true false) adoptedLease = some s ∧ s.tasks[0]? = some (.worker w) ∧
    w.claim < s.row.attemptCount ∧ s.row.leaseOwner = some "second" ∧
    s.step (.advance 0 true true) = some t ∧ t.row.leaseOwner = none ∧ t.row.status = .failed := by
  obtain ⟨s, hs, task, htask, w, hw, rfl, hearlier, howner, t, ht, hreleased⟩ : ∃ s,
      exec step (initial true false) adoptedLease = some s ∧ ∃ task ∈ s.tasks[0]?,
        ∃ w ∈ task.worker?, task = .worker w ∧ w.claim < s.row.attemptCount ∧
          s.row.leaseOwner = some "second" ∧ ∃ t ∈ s.step (.advance 0 true true),
            t.row.leaseOwner = none ∧ t.row.status = .failed := by
    decide
  exact ⟨s, t, w, hs, htask, hearlier, howner, ht, hreleased⟩

end System

end Shiftgate.Jobs
