import Shiftgate.Transfer.Forward

/-! Settled sessions and live restores. A restore that runs is owned by the request that is at work
on it or by the session that has recorded it. `Honest` says who owns what. -/

namespace Shiftgate.Transfer

open Library Checkpoint List Restores RollbackCaller

def live : RestoreState → Bool
  | .processRunning | .validated | .committed => true
  | _ => false

def Dead (r : Restores) (id : Nat) : Prop :=
  ∀ state, r.records[id]? = some state → live state = false

def PreparePoint.id? : PreparePoint → Option Nat
  | .admission => none
  | .recorded id | .switched id | .tree id | .adopted id | .running id => some id

def CommitPoint.id : CommitPoint → Nat
  | .read id | .write id => id

inductive Prepares (r : Restores) (ok : Bool) : PreparePoint → Restores → PrepareNext → Prop
  | refused : Prepares r ok .admission r .refused
  | admitted (hok : ok = true) :
      Prepares r ok .admission r.beginRestore (.next (.recorded r.records.length))
  | unwound {q : PreparePoint} {id : Nat} (hid : PreparePoint.id? q = some id)
      (htree : ∀ k, q ≠ .tree k) : Prepares r ok q r (.unwind id)
  | killed {id : Nat} : Prepares r ok (.tree id) (r.killTree id) (.unwind id)
  | switched {id : Nat} :
      Prepares r ok (.recorded id) (r.setRecord id .filesystemSwitched) (.next (.switched id))
  | restored {id : Nat} : Prepares r ok (.switched id) (r.restoreTree id) (.next (.tree id))
  | adopted {id : Nat} : Prepares r ok (.tree id) (r.adoptTree id) (.next (.adopted id))
  | running {id : Nat} :
      Prepares r ok (.adopted id) (r.setRecord id .processRunning) (.next (.running id))
  | validated {id : Nat} : Prepares r ok (.running id) (r.setRecord id .validated) (.prepared id)

variable {d : Destination} {i : Nat} {task t : Task} {p p' : Point} {s s' : Session}
  {r r' : Restores} {id k : Nat} {state found : RestoreState} {caller : RollbackCaller} {ok : Bool}
  {q : PreparePoint} {next : PrepareNext}

theorem prepareStep_prepares (h : prepareStep r ok q = some (r', next)) :
    Prepares r ok q r' next := by
  cases q with
  | admission | switched =>
    cases ok with
    | false =>
      cases h
      constructor <;> first | rfl | nofun
    | true =>
      simp only [prepareStep, if_true, Option.ite_none_left_eq_some] at h
      cases h.2
      constructor <;> rfl
  | recorded | tree | adopted | running =>
    cases ok <;> cases h <;> constructor <;> first | rfl | nofun

namespace Point

def restoring : Point → Bool
  | .preparing _ | .prepared _ | .prepareFailed => true
  | .rolling .prepare _ | .rolling .undo _ => true
  | _ => false

def mentions : Point → Option Nat
  | .preparing p => PreparePoint.id? p
  | .prepared id => some id
  | .committing p => some (CommitPoint.id p)
  | .rolling _ p => some p.id
  | .rolledBack restoreID => restoreID
  | _ => none

def owns : Point → Option Nat
  | .preparing p => PreparePoint.id? p
  | .prepared id => some id
  | .rolling .prepare p | .rolling .undo p => some p.id
  | _ => none

def tornDown : Point → Option Nat
  | .rolling _ (.stop id) | .rolling _ (.finish id) => some id
  | .rolledBack restoreID => restoreID
  | _ => none

theorem mentions_of_owns (h : p.owns = some id) : p.mentions = some id := by
  cases p with
  | rolling caller p => cases caller <;> simp_all [owns, mentions]
  | _ => simp_all [owns, mentions]

theorem restoring_of_owns (h : p.owns = some id) : p.restoring = true := by
  cases p with
  | rolling caller p => cases caller <;> simp_all [owns, restoring]
  | _ => simp_all [owns, restoring]

theorem owns_of_ingests (h : p.ingests) : p.owns = none := by
  cases p <;> first | rfl | cases h

theorem mentions_of_tornDown (h : p.tornDown = some id) : p.mentions = some id := by
  cases p with
  | rolling caller p => cases p <;> simp_all [tornDown, mentions, RollbackPoint.id]
  | _ => simp_all [tornDown, mentions]

end Point

open Point

def SessionState.keepsRestore : SessionState → Bool
  | .restored | .committed => true
  | _ => false

def SessionState.settled : SessionState → Bool
  | .failed | .rolledBack => true
  | _ => false

inductive Wrote (p : Point) (s s' : Session) : Prop
  | untouched (hstate : s'.state = s.state) (hid : s'.restoreID = s.restoreID)
  | unrestored (hkeeps : s.state.keepsRestore = false) (hstate : s.state ≠ .rolledBack)
      (hsettled : s'.state.settled = false) (hid : s'.restoreID = s.restoreID)
  | failed (hp : p = .prepareFailed) (hstate : s.state = .verified)
      (hid : s'.restoreID = s.restoreID)
  | committed (hp : p = .committed) (hstate : s'.state = .committed)
      (hid : s'.restoreID = s.restoreID)
  | rolledBack (restoreID : Option Nat) (hp : p = .rolledBack restoreID)
      (hstate : s'.state = .rolledBack) (hid : s'.restoreID = s.restoreID)
  | prepared (id : Nat) (hp : p = .prepared id) (hstate : s.state = .verified)
      (hs' : s' = { s with state := .restored, restoreID := some id })

theorem Point.change_wrote (hchange : p.change s = .ok s') (hadmits : p.admits s.state = true) :
    Wrote p s s' := by
  -- the states before a restore
  have unrestored : s.state ∈ [SessionState.reserved, .keyReady, .manifestReady, .verified] →
      s'.state.settled = false → s'.restoreID = s.restoreID → Wrote p s s' := by
    intro hstate
    refine .unrestored ?_ ?_ <;> revert hstate <;> cases s.state <;> decide
  cases p with
  | importKey keyVersion =>
    simp only [change] at hchange
    split at hchange
    · rename_i hs
      cases hchange
      exact unrestored (by revert hs; cases s.state <;> decide) rfl rfl
    · cases hchange
  | importManifest | verify =>
    cases hchange
    exact unrestored (by cases hs : s.state <;> simp_all [admits]) rfl rfl
  | chunkGate storedSize =>
    simp only [change] at hchange
    split at hchange
    · cases hchange
    · split at hchange <;> cases hchange
      exact .untouched rfl rfl
  | prepared id =>
    cases hchange
    exact .prepared id rfl (by simpa [admits] using hadmits) rfl
  | prepareFailed =>
    cases hchange
    exact .failed rfl (by simpa [admits] using hadmits) rfl
  | committed =>
    simp only [change] at hchange
    split at hchange
    · cases hchange
    · split at hchange <;> cases hchange
      exact .committed rfl rfl rfl
  | rolledBack restoreID =>
    cases hchange
    exact .rolledBack restoreID rfl rfl rfl
  | hold input =>
    simp only [change] at hchange
    split at hchange
    · cases hchange
    · split at hchange
      · rename_i hs
        cases hchange
        exact unrestored (by simp [hs]) rfl rfl
      · cases hchange
  | chunkImport | preparing | committing | rolling | done =>
    cases hchange
    exact .untouched rfl rfl

structure Honest (d : Destination) : Prop where
  bounded : ∀ task ∈ d.tasks, ∀ id, task.point.mentions = some id →
    id < d.restores.records.length
  sessionBounded : ∀ s, d.session = some s → ∀ id, s.restoreID = some id →
    id < d.restores.records.length
  exclusive : ∀ (i j : Nat) (ti tj : Task) (id : Nat), d.tasks[i]? = some ti →
    d.tasks[j]? = some tj → ti.point.owns = some id → tj.point.mentions = some id → i = j
  unrecorded : ∀ task ∈ d.tasks, ∀ id, task.point.owns = some id →
    (∀ s, d.session = some s → s.restoreID ≠ some id) ∧
      d.restores.records[id]? ≠ some .committed
  tornDown : ∀ task ∈ d.tasks, ∀ id, task.point.tornDown = some id → Dead d.restores id
  owned : ∀ id, ¬Dead d.restores id → (∃ task ∈ d.tasks, task.point.owns = some id) ∨
    ∃ s, d.session = some s ∧ s.restoreID = some id ∧ s.state.keepsRestore = true
  recorded : ∀ s, d.session = some s → s.restoreID.isSome = true →
    s.state.keepsRestore = true ∨ s.state = .rolledBack
  quiet : ∀ s, d.session = some s → s.state.settled = true →
    ∀ task ∈ d.tasks, task.point.restoring = false

theorem Honest.no_live (h : Honest d) (hs : d.session = some s)
    (hsettled : s.state.settled = true) : ∀ state ∈ d.restores.records, live state = false := by
  intro state hstate
  by_contra hlive
  obtain ⟨id, hid⟩ := mem_iff_getElem?.mp hstate
  have halive : ¬Dead d.restores id := fun hdead => hlive (hdead state hid)
  rcases h.owned id halive with ⟨task, htask, howns⟩ | ⟨s', hs', -, hkeeps⟩
  · have := h.quiet s hs hsettled task htask
    simp [restoring_of_owns howns] at this
  · cases hs'.symm.trans hs
    cases hstate : s.state <;> simp_all [SessionState.settled, SessionState.keepsRestore]

theorem getElem?_setPoint {j : Nat} (h : (d.setPoint i task p').tasks[j]? = some t) :
    (j = i ∧ t = { task with point := p' }) ∨ (j ≠ i ∧ d.tasks[j]? = some t) := by
  simp only [Destination.setPoint, getElem?_set] at h
  split at h
  · rename_i hij
    split at h
    · cases h
      exact .inl ⟨hij.symm, rfl⟩
    · cases h
  · rename_i hij
    exact .inr ⟨fun hji => hij hji.symm, h⟩

theorem mem_setPoint (h : t ∈ (d.setPoint i task p').tasks) :
    t = { task with point := p' } ∨ t ∈ d.tasks ∧ ∃ j, j ≠ i ∧ d.tasks[j]? = some t := by
  obtain ⟨j, hj⟩ := mem_iff_getElem?.mp h
  rcases getElem?_setPoint hj with ⟨-, ht⟩ | ⟨hji, hj⟩
  · exact .inl ht
  · exact .inr ⟨mem_of_getElem? hj, j, hji, hj⟩

theorem setPoint_mem_of_ne (hi : d.tasks[i]? = some task) (ht : t ∈ d.tasks) (hne : t ≠ task) :
    t ∈ (d.setPoint i task p').tasks := by
  obtain ⟨j, hj⟩ := mem_iff_getElem?.mp ht
  have hji : i ≠ j := by
    rintro rfl
    exact hne (Option.some.inj (hj.symm.trans hi))
  exact mem_iff_getElem?.mpr ⟨j, by simp [Destination.setPoint, hji, hj]⟩

theorem setPoint_mem_self (hi : d.tasks[i]? = some task) :
    { task with point := p' } ∈ (d.setPoint i task p').tasks := by
  obtain ⟨hlt, -⟩ := List.getElem?_eq_some_iff.mp hi
  exact mem_iff_getElem?.mpr ⟨i, by simp [Destination.setPoint, hlt]⟩

/-- What the step may do to the record, and what the request must still own or have taken down
afterwards. -/
structure RestoreStep (r : Restores) (p : Point) (r' : Restores) (p' : Point) : Prop where
  length : r'.records.length = r.records.length
  frame : ∀ id, p.mentions ≠ some id → r'.records[id]? = r.records[id]?
  mentions : ∀ id, p'.mentions = some id → p.mentions = some id
  owns : ∀ id, p'.owns = some id → p.owns = some id ∧ r'.records[id]? ≠ some .committed
  restoring : p'.restoring = true → p.restoring = true
  tornDown : ∀ id, p'.tornDown = some id → Dead r' id
  stays : ∀ id, p.mentions = some id → p.owns ≠ some id → Dead r id → Dead r' id
  released : ∀ id, p.owns = some id → p'.owns = some id ∨ Dead r' id

theorem RestoreStep.dead (h : RestoreStep r p r' p') (hid : p.owns ≠ some id) (hdead : Dead r id) :
    Dead r' id := by
  by_cases hm : p.mentions = some id
  · exact h.stays id hm hid hdead
  · intro state hstate
    exact hdead state (h.frame id hm ▸ hstate)

theorem Honest.restoreStep (h : Honest d) (hi : d.tasks[i]? = some task)
    (hstep : RestoreStep d.restores task.point r' p') :
    Honest ((d.setPoint i task p').setRestores r') := by
  have htask : task ∈ d.tasks := mem_of_getElem? hi
  constructor
  case bounded =>
    intro t ht id hid
    show id < r'.records.length
    rw [hstep.length]
    rcases mem_setPoint ht with rfl | ⟨hmem, -⟩
    · exact h.bounded task htask id (hstep.mentions id hid)
    · exact h.bounded t hmem id hid
  case sessionBounded =>
    intro s hs id hid
    show id < r'.records.length
    rw [hstep.length]
    exact h.sessionBounded s hs id hid
  case exclusive =>
    intro j k tj tk id hj hk howns hmentions
    rcases getElem?_setPoint hj with ⟨rfl, rfl⟩ | ⟨hji, hj'⟩ <;>
      rcases getElem?_setPoint hk with ⟨rfl, rfl⟩ | ⟨hki, hk'⟩
    · rfl
    · exact h.exclusive j k task tk id hi hk' (hstep.owns id howns).1 hmentions
    · exact h.exclusive j k tj task id hj' hi howns (hstep.mentions id hmentions)
    · exact h.exclusive j k tj tk id hj' hk' howns hmentions
  case unrecorded =>
    intro t ht id howns
    rcases mem_setPoint ht with rfl | ⟨hmem, j, hji, hj⟩
    · obtain ⟨ho, hc⟩ := hstep.owns id howns
      exact ⟨(h.unrecorded task htask id ho).1, hc⟩
    · obtain ⟨hs, hc⟩ := h.unrecorded t hmem id howns
      refine ⟨hs, ?_⟩
      show r'.records[id]? ≠ some .committed
      rw [hstep.frame id fun hm => hji (h.exclusive j i t task id hj hi howns hm)]
      exact hc
  case tornDown =>
    intro t ht id htorn
    rcases mem_setPoint ht with rfl | ⟨hmem, j, hji, hj⟩
    · exact hstep.tornDown id htorn
    · have hdead := h.tornDown t hmem id htorn
      refine hstep.dead (fun ho => hji ?_) hdead
      exact (h.exclusive i j task t id hi hj ho (mentions_of_tornDown htorn)).symm
  case owned =>
    intro id hlive
    by_cases ho : task.point.owns = some id
    · rcases hstep.released id ho with ho' | hd
      · exact .inl ⟨_, setPoint_mem_self hi, ho'⟩
      · exact absurd hd hlive
    · have hlive' : ¬Dead d.restores id := fun hdead => hlive (hstep.dead ho hdead)
      rcases h.owned id hlive' with ⟨t, ht, howns⟩ | hs
      · refine .inl ⟨t, setPoint_mem_of_ne hi ht ?_, howns⟩
        rintro rfl
        exact ho howns
      · exact .inr hs
  case recorded => exact h.recorded
  case quiet =>
    intro s hs hsettled t ht
    rcases mem_setPoint ht with rfl | ⟨hmem, -⟩
    · have := h.quiet s hs hsettled task htask
      cases hr : p'.restoring with
      | false => rfl
      | true => simp [hstep.restoring hr] at this
    · exact h.quiet s hs hsettled t hmem

theorem getElem?_setRecord_ne (state : RestoreState) (h : k ≠ id) :
    (r.setRecord id state).records[k]? = r.records[k]? := by
  simp [setRecord, getElem?_set_ne h.symm]

theorem getElem?_setRecord (h : (r.setRecord id state).records[k]? = some found) :
    k = id ∧ found = state ∨ k ≠ id ∧ r.records[k]? = some found := by
  by_cases hid : k = id
  · subst hid
    simp only [setRecord, getElem?_set_self'] at h
    cases hr : r.records[k]? <;> simp [hr] at h
    exact .inl ⟨rfl, h.symm⟩
  · rw [getElem?_setRecord_ne state hid] at h
    exact .inr ⟨hid, h⟩

theorem Dead.of_set (h : live state = false) : Dead (r.setRecord id state) id := by
  intro found hfound
  rcases getElem?_setRecord hfound with ⟨-, rfl⟩ | ⟨hne, -⟩
  · exact h
  · exact absurd rfl hne

theorem getElem?_of_setRecord (hne : state ≠ found)
    (h : (r.setRecord id state).records[k]? = some found) : r.records[k]? = some found := by
  rcases getElem?_setRecord h with ⟨-, hfound⟩ | ⟨-, hold⟩
  · exact absurd hfound.symm hne
  · exact hold

theorem getElem?_of_beginRestore (hne : .preparing ≠ found)
    (h : r.beginRestore.records[k]? = some found) : r.records[k]? = some found := by
  simp only [beginRestore, getElem?_append] at h
  split at h
  · exact h
  · cases hk : k - r.records.length <;> simp [hk, hne] at h

theorem setRecord_ne_committed (h : state ≠ .committed) :
    (r.setRecord id state).records[id]? ≠ some .committed := by
  intro hfound
  rcases getElem?_setRecord hfound with ⟨-, hstate⟩ | ⟨hne, -⟩
  · exact h hstate.symm
  · exact hne rfl

theorem RestoreStep.set (hrecords : r'.records = (r.setRecord id state).records)
    (hp : p.mentions = some id) (hmentions : p'.mentions = some id ∨ p'.mentions = none)
    (howns : ∀ id, p'.owns = some id → p.owns = some id ∧ state ≠ .committed)
    (hrestoring : p'.restoring = true → p.restoring = true)
    (htorn : ∀ id, p'.tornDown = some id → live state = false)
    (hstays : p.owns ≠ some id → Dead r id → live state = false)
    (hreleased : p.owns = some id → p'.owns = some id ∨ live state = false) :
    RestoreStep r p r' p' := by
  have hdead : ∀ {k}, live state = false → k = id → Dead r' k := by
    rintro k hlive rfl st hst
    exact Dead.of_set (r := r) hlive st (by rw [← hrecords]; exact hst)
  have hid : ∀ {k}, p'.mentions = some k → k = id := by
    intro k hk
    rcases hmentions with hm | hm <;> simp_all
  refine ⟨?_, ?_, ?_, ?_, hrestoring, ?_, ?_, ?_⟩
  · rw [hrecords]
    simp [setRecord]
  · intro k hk
    rw [hrecords]
    refine getElem?_setRecord_ne state ?_
    rintro rfl
    exact hk hp
  · intro k hk
    rw [hid hk]
    exact hp
  · intro k hk
    have hkid := hid (mentions_of_owns hk)
    subst hkid
    refine ⟨(howns k hk).1, ?_⟩
    rw [hrecords]
    exact setRecord_ne_committed (howns k hk).2
  · intro k hk
    exact hdead (htorn k hk) (hid (mentions_of_tornDown hk))
  · intro k hk hne hd
    cases hp.symm.trans hk
    exact hdead (hstays hne hd) rfl
  · intro k hk
    cases hp.symm.trans (mentions_of_owns hk)
    exact (hreleased hk).imp (fun h => h) fun hlive => hdead hlive rfl

theorem RestoreStep.same (hrecords : r'.records = r.records)
    (hmentions : ∀ id, p'.mentions = some id → p.mentions = some id)
    (howns : ∀ id, p'.owns = some id → p.owns = some id ∧ r.records[id]? ≠ some .committed)
    (hrestoring : p'.restoring = true → p.restoring = true)
    (htorn : ∀ id, p'.tornDown = some id → Dead r id)
    (hreleased : ∀ id, p.owns = some id → p'.owns = some id ∨ Dead r id) :
    RestoreStep r p r' p' := by
  have hdead : ∀ {k}, Dead r k → Dead r' k := by
    intro k hk st hst
    exact hk st (hrecords ▸ hst)
  refine ⟨by rw [hrecords], fun _ _ => by rw [hrecords], hmentions, fun id hid => ?_, hrestoring,
    fun id hid => hdead (htorn id hid), fun id _ _ hd => hdead hd,
    fun id hid => (hreleased id hid).imp (fun h => h) hdead⟩
  rw [hrecords]
  exact howns id hid

theorem resume_owns (caller : RollbackCaller) (id : Nat) (ok : Bool) :
    (caller.resume id ok).owns = none := by
  cases caller <;> cases ok <;> rfl

theorem resume_mentions (caller : RollbackCaller) (id : Nat) (ok : Bool) :
    (caller.resume id ok).mentions = some id ∨ (caller.resume id ok).mentions = none := by
  cases caller <;> cases ok <;> simp [resume, mentions]

theorem resume_restoring (h : (caller.resume id ok).restoring = true) (p : RollbackPoint) :
    (rolling caller p).restoring = true := by
  cases caller <;> cases ok <;> simp_all [resume, restoring]

theorem resume_tornDown (h : (caller.resume id ok).tornDown = some k) : k = id ∧ ok = true := by
  cases caller <;> cases ok <;> simp_all [resume, tornDown]

theorem rolling_owns {p : RollbackPoint} (h : (rolling caller p).owns = some k) :
    k = p.id := by
  cases caller <;> simp_all [owns]

theorem RestoreStep.resumed (caller : RollbackCaller) (p : RollbackPoint) (ok : Bool)
    (hrecords : r'.records = r.records)
    (hdead : ok = true ∨ (rolling caller p).owns = some p.id → Dead r p.id) :
    RestoreStep r (.rolling caller p) r' (caller.resume p.id ok) := by
  refine .same hrecords (fun k hk => ?_) (fun k hk => ?_) (fun h => resume_restoring h p)
    (fun k hk => ?_) fun k hk => ?_
  · rcases resume_mentions caller p.id ok with hm | hm
    · exact hm.symm.trans hk
    · simp [hm] at hk
  · simp [resume_owns] at hk
  · obtain ⟨rfl, hok⟩ := resume_tornDown hk
    exact hdead (.inl hok)
  · cases rolling_owns hk
    exact .inr (hdead (.inr hk))

theorem rollbackStep_restoreStep (caller : RollbackCaller) (p : RollbackPoint) (ok : Bool)
    (hc : ∀ id, (rolling caller p).owns = some id → r.records[id]? ≠ some .committed)
    (ht : ∀ id, (rolling caller p).tornDown = some id → Dead r id) :
    RestoreStep r (.rolling caller p) (rollbackStep r ok p).1
      (afterRollback caller p.id (rollbackStep r ok p).2) := by
  have hrestoring : ∀ q, (rolling caller q).restoring = true →
      (rolling caller p).restoring = true := by
    intro q hq
    cases caller <;> simp_all [restoring]
  have howns : ∀ q k, q.id = p.id → (rolling caller q).owns = some k →
      (rolling caller p).owns = some k := by
    intro q k hq hk
    cases caller <;> simp_all [owns]
  cases p with
  | read id =>
    cases hr : r.records[id]? with
    | none =>
      simp only [rollbackStep, hr]
      exact .resumed caller (.read id) false rfl fun _ st hst => by
        simp [RollbackPoint.id, hr] at hst
    | some st =>
      have going : RestoreStep r (.rolling caller (.read id)) r (.rolling caller (.begin id)) :=
        .same rfl (fun k hk => hk)
          (fun k hk => ⟨howns (.begin id) k rfl hk, hc k (howns (.begin id) k rfl hk)⟩)
          (hrestoring _) (fun k hk => by simp [tornDown] at hk)
          fun k hk => .inl (by cases caller <;> simp_all [owns, RollbackPoint.id])
      cases st with
      | rolledBack =>
        simp only [rollbackStep, hr]
        exact .resumed caller (.read id) true rfl fun _ st hst => by
          simp only [RollbackPoint.id, hr, Option.some.injEq] at hst
          exact hst ▸ rfl
      | committed =>
        simp only [rollbackStep, hr]
        exact .resumed caller (.read id) false rfl fun h => by
          simp only [Bool.false_eq_true, false_or] at h
          exact absurd hr (hc id h)
      | preparing | filesystemSwitched | processRunning | validated | rollingBack =>
        simp only [rollbackStep, hr]
        exact going
  | begin id =>
    exact .set rfl rfl (.inl rfl) (fun k hk => ⟨howns (.stop id) k rfl hk, by simp⟩) (hrestoring _)
      (fun _ _ => rfl) (fun _ _ => rfl) fun _ => .inr rfl
  | stop id =>
    exact .same rfl (fun k hk => hk)
      (fun k hk => ⟨howns (.finish id) k rfl hk, hc k (howns (.finish id) k rfl hk)⟩)
      (hrestoring _) (fun k hk => ht k hk)
      fun k hk => .inr (by cases rolling_owns hk; exact ht id rfl)
  | finish id =>
    cases ok with
    | true =>
      have hrecords : (rollbackStep r true (.finish id)).1.records =
          (r.setRecord id .rolledBack).records := rfl
      refine .set hrecords rfl (resume_mentions caller id true) (fun k hk => ?_)
        (fun h => resume_restoring h (.finish id)) (fun _ _ => rfl)
        (fun _ _ => rfl) fun _ => .inr rfl
      simp [rollbackStep, afterRollback, resume_owns] at hk
    | false => exact .resumed caller (.finish id) false rfl fun _ => ht id rfl

theorem commitStep_restoreStep (p : CommitPoint) (ok : Bool)
    (hvalid : ∀ id, p = .write id → r.records[id]? = some .validated) :
    RestoreStep r (.committing p) (commitStep r ok p).1 (afterCommit (commitStep r ok p).2) := by
  -- a commit owns nothing, and neither does the request after it
  have quiet : ∀ {r'' q}, r''.records = r.records → (∀ k, mentions q = some k →
      (committing p).mentions = some k) → owns q = none → restoring q = false →
      tornDown q = none → RestoreStep r (.committing p) r'' q := by
    intro r'' q hrecords hmentions howns hrestoring htorn
    exact .same hrecords hmentions (fun k hk => by simp [howns] at hk)
      (fun h => by simp [hrestoring] at h) (fun k hk => by simp [htorn] at hk)
      fun k hk => by simp [owns] at hk
  cases p with
  | read id =>
    cases hr : r.records[id]? with
    | none =>
      simp only [commitStep, hr]
      exact quiet rfl (by simp [afterCommit, mentions]) rfl rfl rfl
    | some st =>
      cases st <;> simp only [commitStep, hr] <;>
        exact quiet rfl (by simp [afterCommit, mentions, CommitPoint.id]) rfl rfl rfl
  | write id =>
    cases ok with
    | false => exact quiet rfl (by simp [commitStep, afterCommit, mentions]) rfl rfl rfl
    | true =>
      have hrecords : (commitStep r true (.write id)).1.records =
          (r.setRecord id .committed).records := rfl
      refine .set hrecords rfl (.inr rfl) (fun k hk => ?_) (fun h => ?_) (fun k hk => ?_)
        (fun _ hdead => ?_) fun h => ?_
      · simp [commitStep, afterCommit, owns] at hk
      · simp [commitStep, afterCommit, restoring] at h
      · simp [commitStep, afterCommit, tornDown] at hk
      · exact absurd (hdead _ (hvalid id rfl)) (by decide)
      · simp [owns] at h

theorem prepareStep_restoreStep (h : prepareStep r ok q = some (r', next))
    (hq : q = .admission → ok = false)
    (hc : ∀ id, PreparePoint.id? q = some id → r.records[id]? ≠ some .committed) :
    RestoreStep r (.preparing q) r' (afterPrepare next) := by
  -- the request keeps its restore through a step that leaves the records
  have keeps : ∀ {r'' p' id}, r''.records = r.records → PreparePoint.id? q = some id →
      mentions p' = some id → owns p' = some id → tornDown p' = none →
      RestoreStep r (.preparing q) r'' p' := by
    intro r'' p' id hrecords hid hmentions howns htorn
    exact .same hrecords (fun k hk => hid.trans (hmentions.symm.trans hk))
      (fun k hk => ⟨hid.trans (howns.symm.trans hk), hc k (hid.trans (howns.symm.trans hk))⟩)
      (fun _ => rfl) (fun k hk => by simp [htorn] at hk)
      fun k hk => .inl (howns.trans (hid.symm.trans hk))
  -- and through a write of its record
  have writes : ∀ {p' id state}, PreparePoint.id? q = some id → state ≠ RestoreState.committed →
      mentions p' = some id → owns p' = some id → tornDown p' = none →
      RestoreStep r (.preparing q) (r.setRecord id state) p' := by
    intro p' id state hid hstate hmentions howns htorn
    exact .set rfl hid (.inl hmentions) (fun k hk => ⟨hid.trans (howns.symm.trans hk), hstate⟩)
      (fun _ => rfl) (fun k hk => by simp [htorn] at hk)
      (fun hne _ => absurd hid hne) fun _ => .inl howns
  cases prepareStep_prepares h with
  | refused =>
    exact .same rfl (by simp [afterPrepare, mentions]) (by simp [afterPrepare, owns])
      (fun _ => rfl) (by simp [afterPrepare, tornDown])
      (by simp [owns, PreparePoint.id?])
  | admitted hok => cases (hq rfl).symm.trans hok
  | unwound hid => exact keeps rfl hid rfl rfl rfl
  | killed | restored | adopted => exact keeps rfl rfl rfl rfl rfl
  | switched | running | validated => exact writes rfl (by simp) rfl rfl rfl

theorem Honest.admitted (h : Honest d) (hi : d.tasks[i]? = some task)
    (hpoint : task.point = .preparing .admission) :
    Honest ((d.setPoint i task (.preparing (.recorded d.restores.records.length))).setRestores
      d.restores.beginRestore) := by
  have htask : task ∈ d.tasks := mem_of_getElem? hi
  have hlength : d.restores.beginRestore.records.length = d.restores.records.length + 1 := by
    simp [beginRestore]
  have hold : ∀ id, id < d.restores.records.length →
      d.restores.beginRestore.records[id]? = d.restores.records[id]? := by
    intro id hid
    simp [beginRestore, getElem?_append_left hid]
  have hdead : ∀ id, Dead d.restores id → Dead d.restores.beginRestore id := by
    intro id hd st hst
    by_cases hid : id < d.restores.records.length
    · exact hd st (hold id hid ▸ hst)
    · simp only [beginRestore] at hst
      rw [getElem?_append_right (by omega)] at hst
      cases hk : id - d.restores.records.length <;> simp [hk] at hst
      exact hst ▸ rfl
  constructor
  case bounded =>
    intro t ht id hid
    show id < d.restores.beginRestore.records.length
    rw [hlength]
    rcases mem_setPoint ht with rfl | ⟨hmem, -⟩
    · cases hid
      omega
    · have := h.bounded t hmem id hid
      omega
  case sessionBounded =>
    intro s hs id hid
    show id < d.restores.beginRestore.records.length
    have := h.sessionBounded s hs id hid
    omega
  case exclusive =>
    intro j k tj tk id hj hk howns hmentions
    rcases getElem?_setPoint hj with ⟨rfl, rfl⟩ | ⟨hji, hj'⟩ <;>
      rcases getElem?_setPoint hk with ⟨rfl, rfl⟩ | ⟨hki, hk'⟩
    · rfl
    · cases howns
      exact absurd (h.bounded tk (mem_of_getElem? hk') _ hmentions) (lt_irrefl _)
    · cases hmentions
      exact absurd (h.bounded tj (mem_of_getElem? hj') _ (mentions_of_owns howns))
        (lt_irrefl _)
    · exact h.exclusive j k tj tk id hj' hk' howns hmentions
  case unrecorded =>
    intro t ht id howns
    rcases mem_setPoint ht with rfl | ⟨hmem, -⟩
    · cases howns
      refine ⟨fun s hs hid => absurd (h.sessionBounded s hs _ hid) (lt_irrefl _), ?_⟩
      show d.restores.beginRestore.records[d.restores.records.length]? ≠ _
      simp [beginRestore]
    · obtain ⟨hs, hc⟩ := h.unrecorded t hmem id howns
      refine ⟨hs, ?_⟩
      have hlt := h.bounded t hmem id (mentions_of_owns howns)
      show d.restores.beginRestore.records[id]? ≠ _
      rw [hold id hlt]
      exact hc
  case tornDown =>
    intro t ht id htorn
    rcases mem_setPoint ht with rfl | ⟨hmem, -⟩
    · cases htorn
    · exact hdead id (h.tornDown t hmem id htorn)
  case owned =>
    intro id hlive
    rcases h.owned id (fun hd => hlive (hdead id hd)) with ⟨t, ht, howns⟩ | hs
    · refine .inl ⟨t, setPoint_mem_of_ne hi ht ?_, howns⟩
      rintro rfl
      rw [hpoint] at howns
      cases howns
    · exact .inr hs
  case recorded => exact h.recorded
  case quiet =>
    intro s hs hsettled t ht
    have hquiet := h.quiet s hs hsettled
    rcases mem_setPoint ht with rfl | ⟨hmem, -⟩
    · have := hquiet task htask
      rw [hpoint] at this
      cases this
    · exact hquiet t hmem

end Shiftgate.Transfer
