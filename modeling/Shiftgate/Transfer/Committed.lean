import Shiftgate.Transfer.Answers

/-! Committed restores. A restore that is being prepared is known to its request alone, so nobody
can have committed it; and a session, a request or an answer that says COMMITTED has a committed
record behind it, as long as no rollback writes over one. -/

namespace Shiftgate.Transfer

open Library Checkpoint List Option Destination Restores Point

variable {d d' e : Destination} {a : Action} {i : Nat} {task : Task} {work : Work} {p p' : Point}
  {s s' : Session} {source : String} {request : Request} {id : Nat}

def Point.prepares : Point → Option Nat
  | .preparing p => PreparePoint.id? p
  | .prepared id => some id
  | _ => none

def Point.commits : Point → Option Nat
  | .committing p => some (CommitPoint.id p)
  | _ => none

theorem Point.owns_of_prepares (h : p.prepares = some id) : p.owns = some id := by
  cases p <;> first | exact h | cases h

theorem Point.mentions_of_commits (h : p.commits = some id) : p.mentions = some id := by
  cases p <;> first | exact h | cases h

inductive Handed (d : Destination) (id : Nat) : Prop
  | session (s : Session) (hs : d.session = some s) (hid : s.restoreID = some id)
  | commits (j : Nat) (t : Task) (hj : d.tasks[j]? = some t) (hid : t.point.commits = some id)
  | record (h : d.restores.records[id]? = some .committed)

structure Fresh (d : Destination) : Prop where
  handed : ∀ id, Handed d id → id < d.restores.records.length
  prepared : ∀ (j : Nat) (t : Task) (id : Nat), d.tasks[j]? = some t →
    t.point.prepares = some id → id < d.restores.records.length
  distinct : ∀ (j k : Nat) (tj tk : Task) (id : Nat), d.tasks[j]? = some tj →
    d.tasks[k]? = some tk → tj.point.prepares = some id → tk.point.prepares = some id → j = k
  apart : ∀ (j : Nat) (t : Task) (id : Nat), d.tasks[j]? = some t →
    t.point.prepares = some id → ¬ Handed d id

theorem Fresh.frame (h : Fresh d)
    (hlength : d.restores.records.length ≤ d'.restores.records.length)
    (hprepares : ∀ (j : Nat) (t' : Task) (id : Nat), d'.tasks[j]? = some t' →
      t'.point.prepares = some id → ∃ t, d.tasks[j]? = some t ∧ t.point.prepares = some id)
    (hhanded : ∀ id, Handed d' id → Handed d id ∨ ∃ (j : Nat) (t : Task), d.tasks[j]? = some t ∧
      t.point.prepares = some id ∧ ∀ t', d'.tasks[j]? = some t' → t'.point.prepares ≠ some id) :
    Fresh d' where
  handed id hid := by
    refine lt_of_lt_of_le ?_ hlength
    rcases hhanded id hid with hid | ⟨j, t, hj, ht, -⟩
    · exact h.handed id hid
    · exact h.prepared j t id hj ht
  prepared j t' id hj ht' := by
    obtain ⟨t, hj, ht⟩ := hprepares j t' id hj ht'
    exact lt_of_lt_of_le (h.prepared j t id hj ht) hlength
  distinct j k tj tk id hj hk htj htk := by
    obtain ⟨uj, hj, huj⟩ := hprepares j tj id hj htj
    obtain ⟨uk, hk, huk⟩ := hprepares k tk id hk htk
    exact h.distinct j k uj uk id hj hk huj huk
  apart j t' id hj ht' hid := by
    obtain ⟨t, hold, ht⟩ := hprepares j t' id hj ht'
    rcases hhanded id hid with hid | ⟨k, u, hk, hu, hgone⟩
    · exact h.apart j t id hold ht hid
    · cases h.distinct j k t u id hold hk ht hu
      exact hgone t' hj ht'

theorem Fresh.ofIdle (hidle : ∀ t ∈ d.tasks, t.point.prepares = none)
    (hhanded : ∀ id, Handed d id → id < d.restores.records.length) : Fresh d where
  handed := hhanded
  prepared j t id hj ht := by simp [hidle t (mem_of_getElem? hj)] at ht
  distinct j k tj tk id hj _ ht := by simp [hidle tj (mem_of_getElem? hj)] at ht
  apart j t id hj ht := by simp [hidle t (mem_of_getElem? hj)] at ht

variable {r : Restores} {k : Nat} {own : Option Nat} {t' : Task}

theorem setRecord_length {state : RestoreState} :
    (r.setRecord k state).records.length = r.records.length := by
  simp [setRecord]

/-- A step loses no record, commits none, and writes at most the one that `own` names. -/
structure Rewrites (r r' : Restores) (own : Option Nat) : Prop where
  length : r.records.length ≤ r'.records.length
  committed : ∀ id : Nat, r'.records[id]? = some RestoreState.committed →
    r.records[id]? = some RestoreState.committed
  keeps : (∀ id, own = some id → r.records[id]? ≠ some RestoreState.committed) →
    ∀ id : Nat, r.records[id]? = some RestoreState.committed →
      r'.records[id]? = some RestoreState.committed

theorem Rewrites.same {r' : Restores} (h : r'.records = r.records) : Rewrites r r' own := by
  constructor <;> simp [h]

theorem Rewrites.set {r' : Restores} (state : RestoreState) (hown : own = some k)
    (hstate : state ≠ .committed) (h : r'.records = (r.setRecord k state).records) :
    Rewrites r r' own where
  length := by rw [h, setRecord_length]
  committed id hid := by
    rw [h] at hid
    exact getElem?_of_setRecord hstate hid
  keeps hne id hid := by
    have hk : id ≠ k := by
      rintro rfl
      exact hne id hown hid
    rw [h, getElem?_setRecord_ne state hk]
    exact hid

theorem beginRestore_rewrites (r : Restores) (own : Option Nat) :
    Rewrites r r.beginRestore own where
  length := by simp [beginRestore]
  committed _ := getElem?_of_beginRestore (by simp)
  keeps _ id hid := by
    rw [beginRestore, getElem?_append_left (List.getElem?_eq_some_iff.mp hid).1]
    exact hid

theorem prepareStep_rewrites {r' : Restores} {ok : Bool} {q : PreparePoint} {next : PrepareNext}
    (h : prepareStep r ok q = some (r', next)) : Rewrites r r' (PreparePoint.id? q) := by
  cases prepareStep_prepares h with
  | admitted => exact beginRestore_rewrites r _
  | refused | unwound | killed | restored | adopted => exact .same rfl
  | switched | running | validated => exact .set _ rfl (by simp) rfl

def RollbackPoint.writes (ok : Bool) : RollbackPoint → Option Nat
  | .begin id => some id
  | .finish id => if ok then some id else none
  | _ => none

theorem rollbackStep_rewrites (r : Restores) (ok : Bool) (q : RollbackPoint) :
    Rewrites r (rollbackStep r ok q).1 (RollbackPoint.writes ok q) := by
  cases q with
  | read id =>
    simp only [rollbackStep]
    split <;> exact .same rfl
  | begin id => exact .set .rollingBack rfl (by simp) rfl
  | stop id => exact .same rfl
  | finish id =>
    cases ok with
    | true => exact .set .rolledBack rfl (by simp) rfl
    | false => exact .same rfl

def Point.rollsBack (work : Work) : Point → Option Nat
  | .rolling _ q => RollbackPoint.writes (work = .ok) q
  | _ => none

theorem commitStep_records (r : Restores) (ok : Bool) (q : CommitPoint) :
    (commitStep r ok q).1.records = r.records ∨
      (commitStep r ok q).1.records = (r.setRecord (CommitPoint.id q) .committed).records := by
  cases q with
  | read id =>
    simp only [commitStep]
    split <;> exact .inl rfl
  | write id =>
    cases ok with
    | true => exact .inr rfl
    | false => exact .inl rfl

section

variable (hm : PointMove d task work e p')

include hm

theorem PointMove.length_le : d.restores.records.length ≤ e.restores.records.length := by
  cases hm with
  | wrote | refused | failed | stored => exact le_rfl
  | prepare hp hs => exact (prepareStep_rewrites hs).length
  | @commit q hp =>
    show _ ≤ (commitStep d.restores (work = .ok) q).1.records.length
    rcases commitStep_records d.restores (work = .ok) q with h | h <;> rw [h]
    rw [setRecord_length]
  | @rollback caller q hp => exact (rollbackStep_rewrites d.restores _ q).length

theorem PointMove.committed (h : e.restores.records[id]? = some .committed) :
    d.restores.records[id]? = some .committed ∨ task.point.commits = some id := by
  cases hm with
  | wrote | refused | failed | stored => exact .inl h
  | prepare hp hs => exact .inl ((prepareStep_rewrites hs).committed id h)
  | @commit q hp =>
    rw [hp]
    change (commitStep d.restores (work = .ok) q).1.records[id]? = some .committed at h
    rcases commitStep_records d.restores (work = .ok) q with heq | heq <;> rw [heq] at h
    · exact .inl h
    · by_cases hk : id = CommitPoint.id q
      · exact .inr (congrArg some hk.symm)
      · exact .inl (getElem?_setRecord_ne _ hk ▸ h)
  | @rollback caller q hp => exact .inl ((rollbackStep_rewrites d.restores _ q).committed id h)

theorem PointMove.keeps_committed
    (hprepares : ∀ id, task.point.prepares = some id → d.restores.records[id]? ≠ some .committed)
    (hrolls : ∀ id, task.point.rollsBack work = some id →
      d.restores.records[id]? ≠ some .committed) (h : d.restores.records[id]? = some .committed) :
    e.restores.records[id]? = some .committed := by
  cases hm with
  | wrote | refused | failed | stored => exact h
  | prepare hp hs =>
    rw [hp] at hprepares
    exact (prepareStep_rewrites hs).keeps hprepares id h
  | @commit q hp =>
    show (commitStep d.restores (work = .ok) q).1.records[id]? = some .committed
    rcases commitStep_records d.restores (work = .ok) q with heq | heq <;> rw [heq]
    · exact h
    · by_cases hk : id = CommitPoint.id q
      · have hlt := (List.getElem?_eq_some_iff.mp h).1
        simp [setRecord, ← hk, hlt]
      · rw [getElem?_setRecord_ne _ hk]
        exact h
  | @rollback caller q hp =>
    rw [hp] at hrolls
    exact (rollbackStep_rewrites d.restores _ q).keeps hrolls id h

end

section

variable (hm : PointMove d task work e p')

include hm

theorem PointMove.prepares (h : p'.prepares = some id) :
    task.point.prepares = some id ∨ task.point = .preparing .admission ∧ work = .ok := by
  cases hm with
  | wrote hwrites hfound hchange hs hp =>
    rcases hp with rfl | ⟨-, status, code, rfl⟩
    · unfold afterWrite at h
      split at h <;> cases h
    · cases h
  | refused =>
    unfold afterWrite at h
    split at h <;> cases h
  | failed | stored => cases h
  | @prepare q r next hp hs =>
    rw [hp]
    cases prepareStep_prepares hs with
    | refused | unwound | killed => cases h
    | admitted hok => exact .inr ⟨rfl, of_decide_eq_true hok⟩
    | switched | restored | adopted | running | validated => exact .inl h
  | @commit q hp =>
    rcases hn : (commitStep d.restores (work = .ok) q).2 with q' | ok <;> rw [hn] at h
    · cases h
    · cases ok <;> cases h
  | @rollback caller q hp =>
    rcases hn : (rollbackStep d.restores (work = .ok) q).2 with q' | ok <;> rw [hn] at h
    · cases h
    · cases caller <;> cases ok <;> cases h

theorem PointMove.committing (h : p'.commits ≠ none ∨ p' = .committed) :
    ∃ q, task.point = .committing q ∧
      e = d.setRestores (commitStep d.restores (work = .ok) q).1 ∧
      p' = afterCommit (commitStep d.restores (work = .ok) q).2 := by
  have hno : p'.commits = none → p' ≠ .committed → False :=
    fun hcommits hcommitted => h.elim (absurd hcommits) (absurd · hcommitted)
  cases hm with
  | wrote hwrites hfound hchange hs hp =>
    rcases hp with rfl | ⟨-, status, code, rfl⟩
    · unfold afterWrite at hno
      split at hno <;> exact (hno rfl nofun).elim
    · exact (hno rfl nofun).elim
  | refused =>
    unfold afterWrite at hno
    split at hno <;> exact (hno rfl nofun).elim
  | failed | stored => exact (hno rfl nofun).elim
  | @prepare q r next hp hs => cases next <;> exact (hno rfl nofun).elim
  | @commit q hp => exact ⟨q, hp, rfl, rfl⟩
  | @rollback caller q hp =>
    rcases hn : (rollbackStep d.restores (work = .ok) q).2 with q' | ok <;> rw [hn] at hno
    · exact (hno rfl nofun).elim
    · cases caller <;> cases ok <;> exact (hno rfl nofun).elim

theorem PointMove.commits (h : p'.commits = some id) : task.point.commits = some id := by
  obtain ⟨q, hq, -, rfl⟩ := hm.committing (.inl (by simp [h]))
  rw [hq]
  cases q with
  | read k =>
    simp only [commitStep] at h
    split at h
    · cases h
    · exact h
    · cases h
  | write k =>
    simp only [commitStep] at h
    split_ifs at h <;> cases h

end

theorem change_restoreID (hchange : p.change s = .ok s') :
    s'.restoreID = s.restoreID ∨ ∃ id, p = .prepared id ∧ s'.restoreID = some id := by
  cases p with
  | prepared id =>
    cases hchange
    exact .inr ⟨id, rfl, rfl⟩
  | _ =>
    left
    simp only [change] at hchange
    repeat' split at hchange
    all_goals
      cases hchange
      try rfl

theorem startPoint_prepares (d : Destination) (source : String) (request : Request) :
    (d.startPoint source request).prepares = none := by
  cases h : (d.startPoint source request).prepares with
  | none => rfl
  | some id =>
    have howns := owns_of_prepares h
    simp [(startPoint_starts d source request).begins.owns] at howns

theorem StartMove.prepares (hm : StartMove d source request e p) : p.prepares = none := by
  cases hm with
  | refused | held | reserved => rfl
  | request => exact startPoint_prepares d source request

theorem reapExpired_restores (d : Destination) : d.reapExpired.restores = d.restores := by
  rcases reapExpired_cases d with heq | ⟨s, id, -, -, -, heq⟩ <;> rw [heq]
  rfl

section

variable (hc : Change d a d')

include hc

theorem Change.restores_length : d.restores.records.length ≤ d'.restores.records.length := by
  cases hc with
  | start hup hm => cases hm <;> exact le_rfl
  | advance hup hi hm => exact hm.length_le
  | reap => rw [reapExpired_restores]
  | boot =>
    show _ ≤ d.reapExpired.restores.records.length
    rw [reapExpired_restores]
  | recover => exact (recoverRecord_length _ _ _).ge
  | tick | processExit | crash | serve => exact le_rfl

theorem Change.session_restore (hs : d'.session = some s') (hid : s'.restoreID = some id) :
    Handed d id ∨
      ∃ (j : Nat) (t : Task), d.tasks[j]? = some t ∧ t.point = .prepared id ∧
        ∀ t', d'.tasks[j]? = some t' → t'.point.prepares = none := by
  have reaped (h : Transfer.reap d.session d.now = some s') : Handed d id := by
    obtain ⟨s, hsession, rfl⟩ := map_eq_some_iff.mp h
    refine .session s hsession ?_
    split_ifs at hid <;> exact hid
  cases hc with
  | start hup hm =>
    cases hm with
    | reserved hnone hsource hstate hrestore =>
      cases hs
      simp [hrestore] at hid
    | refused | held | request => exact .inl (.session s' hs hid)
  | @advance j work task e p' hup hi hm =>
    cases hm with
    | wrote hwrites hfound hchange hbefore hp =>
      cases hs
      rcases change_restoreID hchange with heq | ⟨k, hpoint, hk⟩
      · exact .inl (.session _ hbefore (heq ▸ hid))
      · cases hk.symm.trans hid
        refine .inr ⟨j, task, hi, hpoint, fun t' ht' => ?_⟩
        rcases getElem?_setPoint ht' with ⟨-, rfl⟩ | ⟨hne, -⟩
        · rw [hpoint] at hp
          rcases hp with rfl | ⟨-, status, code, rfl⟩ <;> rfl
        · exact absurd rfl hne
    | refused | failed | stored | prepare | commit | rollback => exact .inl (.session s' hs hid)
  | reap | boot => exact .inl (reaped ((reapExpired_session d).symm.trans hs))
  | tick | processExit | crash | recover | serve => exact .inl (.session s' hs hid)

theorem Change.task_commits {j : Nat} (hj : d'.tasks[j]? = some t')
    (hid : t'.point.commits = some id) : Handed d id := by
  cases hc.taskMove hj with
  | same hj => exact .commits j t' hj hid
  | advanced hi hm hd ht =>
    subst ht
    exact .commits j _ hi (hm.commits hid)
  | lost hj ht | reaper hj ht =>
    subst ht
    cases hid
  | @started source request e p hj hm hd ht =>
    subst ht
    cases hm with
    | refused | held | reserved => cases hid
    | request =>
      obtain ⟨s, hs, hrestore⟩ :=
        (startPoint_starts d source request).begins.mentions id (mentions_of_commits hid)
      exact .session s hs hrestore

theorem Change.record_committed (hup : d.phase ≠ .down)
    (h : d'.restores.records[id]? = some .committed) : Handed d id := by
  cases hc with
  | start hup hm => cases hm <;> exact .record h
  | advance hup hi hm =>
    rcases hm.committed h with h | h
    · exact .record h
    · exact .commits _ _ hi h
  | reap =>
    rw [reapExpired_restores] at h
    exact .record h
  | boot hdown => exact absurd hdown hup
  | recover hdown => exact absurd hdown hup
  | tick | processExit | crash | serve => exact .record h

end

theorem Fresh.admitted (h : Fresh d)
    (hs : prepareStep d.restores true .admission = some (r, .next (.recorded id))) :
    Fresh ((d.setRestores r).setPoint i task (.preparing (.recorded id))) := by
  have hrecords := prepareStep_rewrites hs
  simp only [prepareStep, if_true, ite_none_left_eq_some] at hs
  obtain ⟨hfree, heq⟩ := hs
  cases heq
  have hold : ∀ {j t}, ((d.setRestores d.restores.beginRestore).setPoint i task
      (.preparing (.recorded d.restores.records.length))).tasks[j]? = some t →
      (j = i ∧ t.point = .preparing (.recorded d.restores.records.length)) ∨
        (j ≠ i ∧ d.tasks[j]? = some t) := by
    intro j t hj
    rcases getElem?_setPoint hj with ⟨hji, rfl⟩ | hj
    · exact .inl ⟨hji, rfl⟩
    · exact .inr hj
  have hlength : d.restores.beginRestore.records.length = d.restores.records.length + 1 := by
    simp [beginRestore]
  have hback : ∀ {k}, Handed ((d.setRestores d.restores.beginRestore).setPoint i task
      (.preparing (.recorded d.restores.records.length))) k → Handed d k := by
    intro k hk
    cases hk with
    | session s hs hid => exact .session s hs hid
    | commits j t hj hid =>
      rcases hold hj with ⟨-, ht⟩ | ⟨-, hj⟩
      · rw [ht] at hid
        cases hid
      · exact .commits j t hj hid
    | record hk => exact .record (hrecords.committed k hk)
  have hlt : ∀ {k}, k < d.restores.records.length →
      k < d.restores.beginRestore.records.length := fun hk => by omega
  refine ⟨fun k hk => hlt (h.handed k (hback hk)), fun j t k hj hk => ?_,
    fun j j' tj tj' k hj hj' hk hk' => ?_, fun j t k hj hk hhanded => ?_⟩
  · show k < d.restores.beginRestore.records.length
    rcases hold hj with ⟨-, ht⟩ | ⟨-, hj⟩
    · rw [ht] at hk
      cases hk
      omega
    · exact hlt (h.prepared j t k hj hk)
  · rcases hold hj with ⟨hji, ht⟩ | ⟨-, hj⟩ <;> rcases hold hj' with ⟨hji', ht'⟩ | ⟨-, hj'⟩
    · exact hji.trans hji'.symm
    · rw [ht] at hk
      cases hk
      exact absurd (h.prepared _ _ _ hj' hk') (lt_irrefl _)
    · rw [ht'] at hk'
      cases hk'
      exact absurd (h.prepared _ _ _ hj hk) (lt_irrefl _)
    · exact h.distinct j j' tj tj' k hj hj' hk hk'
  · rcases hold hj with ⟨-, ht⟩ | ⟨-, hj⟩
    · rw [ht] at hk
      cases hk
      exact absurd (h.handed _ (hback hhanded)) (lt_irrefl _)
    · exact h.apart j t k hj hk (hback hhanded)

def Admits (d : Destination) (a : Action) : Prop :=
  ∃ (j : Nat) (t : Task), a = .advance j .ok ∧ d.tasks[j]? = some t ∧
    t.point = .preparing .admission

theorem Change.prepares (hc : Change d a d') (hadmits : ¬ Admits d a) {j : Nat}
    (hj : d'.tasks[j]? = some t') (hid : t'.point.prepares = some id) :
    ∃ t, d.tasks[j]? = some t ∧ t.point.prepares = some id := by
  cases hc.taskMove hj with
  | same hj' => exact ⟨t', hj', hid⟩
  | @advanced t work e p' hi hm hd ht =>
    subst ht
    rcases hm.prepares hid with hp | ⟨hp, rfl⟩
    · exact ⟨t, hi, hp⟩
    · exact absurd ⟨j, t, rfl, hi, hp⟩ hadmits
  | lost hj ht | reaper hj ht =>
    subst ht
    cases hid
  | started hj hm hd ht =>
    subst ht
    simp [hm.prepares] at hid

theorem Fresh.step_down (h : Fresh d) (hstopped : Stopped d) (hdown : d.phase = .down)
    (hc : Change d a d') : Fresh d' := by
  have hadmits : ¬ Admits d a := by
    rintro ⟨j, t, -, hj, hp⟩
    have := (hstopped hdown t (mem_of_getElem? hj)).2
    rw [hp] at this
    cases this
  refine .ofIdle (fun t' ht' => ?_) fun id hid => ?_
  · obtain ⟨j, hj⟩ := mem_iff_getElem?.mp ht'
    cases hid : t'.point.prepares with
    | none => rfl
    | some id =>
      obtain ⟨t, hj, ht⟩ := hc.prepares hadmits hj hid
      have := (hstopped hdown t (mem_of_getElem? hj)).1
      simp [mentions_of_owns (owns_of_prepares ht)] at this
  · cases hid with
    | session s hs hid =>
      refine lt_of_lt_of_le ?_ hc.restores_length
      rcases hc.session_restore hs hid with hh | ⟨j, t, hj, ht, -⟩
      · exact h.handed id hh
      · exact h.prepared j t id hj (by rw [ht]; rfl)
    | commits j t hj hid =>
      exact lt_of_lt_of_le (h.handed id (hc.task_commits hj hid)) hc.restores_length
    | record hid => exact (List.getElem?_eq_some_iff.mp hid).1

theorem Fresh.step_up (h : Fresh d) (hup : d.phase ≠ .down) (hadmits : ¬ Admits d a)
    (hc : Change d a d') : Fresh d' := by
  refine h.frame hc.restores_length (fun j t' id hj hid => hc.prepares hadmits hj hid)
    fun id hid => ?_
  cases hid with
  | session s hs hid =>
    rcases hc.session_restore hs hid with hh | ⟨j, t, hj, ht, hgone⟩
    · exact .inl hh
    · refine .inr ⟨j, t, hj, by rw [ht]; rfl, fun t' ht' => ?_⟩
      simp [hgone t' ht']
  | commits j t hj hid => exact .inl (hc.task_commits hj hid)
  | record hid => exact .inl (hc.record_committed hup hid)

theorem Fresh.step (h : Fresh d) (hstopped : Stopped d) (hstep : d.step a = some d') :
    Fresh d' := by
  have hc := step_change hstep
  by_cases hdown : d.phase = .down
  · exact h.step_down hstopped hdown hc
  by_cases hadmits : Admits d a
  · obtain ⟨j, t, rfl, hj, hp⟩ := hadmits
    cases hc with
    | advance hup hi hm =>
      cases hj.symm.trans hi
      cases hm with
      | @prepare q r next hq hs =>
        cases hp.symm.trans hq
        have hnext : ∃ id, next = .next (.recorded id) := by
          simp only [prepareStep, decide_true, if_true, ite_none_left_eq_some] at hs
          cases hs.2
          exact ⟨_, rfl⟩
        obtain ⟨id, rfl⟩ := hnext
        exact h.admitted hs
      | wrote hw | refused hw | failed hw =>
        rw [hp] at hw
        cases hw
      | stored hq | commit hq | rollback hq => cases hp.symm.trans hq
  · exact h.step_up hdown hadmits hc

def CommittedRestore (d : Destination) : Prop :=
  ∃ id : Nat, d.restores.records[id]? = some RestoreState.committed

/-- A session, a request or an answer that says COMMITTED has a committed record behind it. -/
structure Backed (d : Destination) : Prop where
  session : ∀ s, d.session = some s → s.state = .committed → CommittedRestore d
  copies : ∀ (j : Nat) (t : Task) (s : Session), d.tasks[j]? = some t → t.point.copy = some s →
    s.state = .committed → CommittedRestore d
  points : ∀ (j : Nat) (t : Task), d.tasks[j]? = some t → t.point = .committed →
    CommittedRestore d

/-- No rollback writes a record that has been committed since it was read. -/
def RollsUncommitted (d : Destination) : Action → Prop
  | .advance i work => ∀ task ∈ d.tasks[i]?, ∀ id ∈ task.point.rollsBack work,
      d.restores.records[id]? ≠ some RestoreState.committed
  | _ => True

theorem recoverRecord_committed (outcome : RecoverOutcome)
    (h : r.records[id]? = some RestoreState.committed) :
    (recoverRecord r k outcome).records[id]? = some RestoreState.committed := by
  have kept {state : RestoreState} (hk : r.records[k]? ≠ some .committed) :
      (r.setRecord k state).records[id]? = some .committed := by
    rw [getElem?_setRecord_ne state fun (heq : id = k) => hk (heq ▸ h)]
    exact h
  refine recoverRecord_induct (·.records[id]? = _) h (fun hvalid => kept (by simp [hvalid]))
    fun hk => ?_
  cases outcome <;> exact kept hk

theorem CommittedRestore.step (h : CommittedRestore d) (hfresh : Fresh d)
    (hrolls : RollsUncommitted d a) (hc : Change d a d') : CommittedRestore d' := by
  obtain ⟨id, hid⟩ := h
  refine ⟨id, ?_⟩
  cases hc with
  | start hup hm => cases hm <;> exact hid
  | @advance j work task e p' hup hi hm =>
    exact hm.keeps_committed (fun k hk hrecord => hfresh.apart j task k hi hk (.record hrecord))
      (fun k hk => hrolls task hi k hk) hid
  | reap =>
    rw [reapExpired_restores]
    exact hid
  | boot =>
    show d.reapExpired.restores.records[id]? = _
    rw [reapExpired_restores]
    exact hid
  | recover => exact recoverRecord_committed _ hid
  | tick | processExit | crash | serve => exact hid

theorem change_committed (hchange : p.change s = .ok s') (hs' : s'.state = .committed) :
    s.state = .committed ∨ p = .committed := by
  cases p with
  | committed => exact .inr rfl
  | _ =>
    left
    simp only [change] at hchange
    repeat' split at hchange
    all_goals
      cases hchange
      try first | exact hs' | cases hs'

theorem PointMove.commits_restore (hm : PointMove d task work e p') (hp : p' = .committed)
    (hlt : ∀ id, task.point.commits = some id → id < d.restores.records.length) :
    CommittedRestore e := by
  obtain ⟨q, hq, rfl, rfl⟩ := hm.committing (.inr hp)
  rw [hq] at hlt
  cases q with
  | read id =>
    refine ⟨id, ?_⟩
    simp only [commitStep] at hp ⊢
    split at hp
    · rename_i hrecord
      exact hrecord
    · cases hp
    · cases hp
  | write id =>
    refine ⟨id, ?_⟩
    simp only [commitStep] at hp ⊢
    split_ifs at hp ⊢
    · simp [setRecord, endRestore, setRestores, hlt id rfl]
    · cases hp

theorem Backed.session_step (h : Backed d) (hkeeps : CommittedRestore d → CommittedRestore d')
    (hc : Change d a d') (hs : d'.session = some s') (hstate : s'.state = .committed) :
    CommittedRestore d' := by
  have reaped (hs : Transfer.reap d.session d.now = some s') : CommittedRestore d' := by
    obtain ⟨s, hsession, rfl⟩ := map_eq_some_iff.mp hs
    -- a session that is reaped has failed
    split_ifs at hstate
    exact hkeeps (h.session s hsession hstate)
  cases hc with
  | start hup hm =>
    cases hm with
    | reserved hnone hsource hreserved =>
      cases hs
      simp [hreserved] at hstate
    | refused | held | request => exact hkeeps (h.session s' hs hstate)
  | advance hup hi hm =>
    cases hm with
    | wrote hwrites hfound hchange hbefore hp =>
      cases hs
      rcases change_committed hchange hstate with hbefore' | hpoint
      · exact hkeeps (h.session _ hbefore hbefore')
      · exact hkeeps (h.points _ _ hi hpoint)
    | refused | failed | stored | prepare | commit | rollback =>
      exact hkeeps (h.session s' hs hstate)
  | reap | boot => exact reaped ((reapExpired_session d).symm.trans hs)
  | tick | processExit | crash | recover | serve => exact hkeeps (h.session s' hs hstate)

theorem Backed.step (h : Backed d) (hfresh : Fresh d) (hrolls : RollsUncommitted d a)
    (hstep : d.step a = some d') : Backed d' := by
  have hc := step_change hstep
  have hkeeps (hcommitted : CommittedRestore d) := hcommitted.step hfresh hrolls hc
  have hsession {s} (hs : d'.session = some s) (hstate : s.state = .committed) :=
    h.session_step hkeeps hc hs hstate
  refine ⟨fun s hs hstate => hsession hs hstate, fun j t s hj hcopy hstate => ?_,
    fun j t hj hp => ?_⟩
  · cases hc.taskMove hj with
    | same hj => exact hkeeps (h.copies j t s hj hcopy hstate)
    | advanced hi hm hd ht =>
      subst hd ht
      rcases hm.copy hcopy with hs | hs | hs
      · exact hkeeps (h.session s hs hstate)
      · exact hsession hs hstate
      · exact hkeeps (h.copies j _ s hi hs hstate)
    | started hj hm hd ht =>
      subst hd ht
      exact hsession (hm.copy hcopy) hstate
    | lost hj ht | reaper hj ht =>
      subst ht
      cases hcopy
  · cases hc.taskMove hj with
    | same hj => exact hkeeps (h.points j t hj hp)
    | advanced hi hm hd ht =>
      subst hd ht
      exact hm.commits_restore hp fun id hid => hfresh.handed id (.commits j _ hi hid)
    | @started source request e p hj hm hd ht =>
      subst ht
      cases hm with
      | refused | held | reserved => cases hp
      | request =>
        have hstarts := startPoint_starts d source request
        rw [show d.startPoint source request = .committed from hp] at hstarts
        cases hstarts
    | lost hj ht | reaper hj ht =>
      subst ht
      cases hp

theorem fresh_initial (standby : Bool) : Fresh (.initial standby) := by
  refine .ofIdle (by simp [initial]) fun id hid => ?_
  cases hid with
  | session s hs => simp [initial] at hs
  | commits j t hj => simp [initial] at hj
  | record h => simp [initial] at h

theorem backed_initial (standby : Bool) : Backed (.initial standby) where
  session s hs := by simp [initial] at hs
  copies j t s hj := by simp [initial] at hj
  points j t hj := by simp [initial] at hj

instance (d : Destination) : ∀ a, Decidable (RollsUncommitted d a)
  | .advance i work => inferInstanceAs (Decidable (∀ task ∈ d.tasks[i]?,
      ∀ id ∈ task.point.rollsBack work, d.restores.records[id]? ≠ some RestoreState.committed))
  | .start .. | .reapExpired | .boot | .crash | .tick | .processExit | .recover .. | .serve =>
    isTrue trivial

end Shiftgate.Transfer
