import Shiftgate.Transfer.Settled

/-! Runs of the destination in which sessions settle cleanly: the session's write-backs, the other
steps, and what follows for every state that such a run reaches. -/

namespace Shiftgate.Transfer

open Library Checkpoint List Point SessionState Destination

variable {d d' : Destination} {i : Nat} {task : Task} {p' : Point} {s s' : Session}

def NoOther (d : Destination) (i : Nat) : Prop :=
  ∀ j < d.tasks.length, j ≠ i → ∀ t ∈ d.tasks[j]?, t.point.restoring = false

def NoRestore (d : Destination) : Prop := ∀ t ∈ d.tasks, t.point.restoring = false

variable {t : Task} {id : Nat} {p : Point} {e : Destination} {a : Action}

theorem NoOther.of_getElem? (h : NoOther d i) {j : Nat} (hji : j ≠ i) (hj : d.tasks[j]? = some t) :
    t.point.restoring = false :=
  h j (List.getElem?_eq_some_iff.mp hj).1 hji t hj

theorem Honest.idle (h : Honest d) (hi : d.tasks[i]? = some task) (hmentions : p'.mentions = none)
    (hrestoring : p'.restoring = false) (howns : task.point.owns = none) :
    Honest (d.setPoint i task p') := by
  have hstep : RestoreStep d.restores task.point d.restores p' := by
    refine .same rfl (fun k hk => ?_) (fun k hk => ?_) (fun hr => ?_) (fun k hk => ?_)
      fun k hk => ?_
    · simp [hmentions] at hk
    · simp [mentions_of_owns hk] at hmentions
    · simp [hrestoring] at hr
    · simp [mentions_of_tornDown hk] at hmentions
    · simp [howns] at hk
  exact h.restoreStep hi hstep

theorem Honest.withSession (h : Honest d)
    (hid : ∀ id, s'.restoreID = some id → ∃ s, d.session = some s ∧ s.restoreID = some id)
    (hrecorded : s'.restoreID.isSome = true →
      s'.state.keepsRestore = true ∨ s'.state = .rolledBack)
    (hkept : ∀ s id, d.session = some s → s.restoreID = some id → s.state.keepsRestore = true →
      s'.restoreID = some id ∧ s'.state.keepsRestore = true ∨ Dead d.restores id)
    (hquiet : s'.state.settled = true → NoRestore d) : Honest (d.setSession s') :=
  { h with
    sessionBounded := by
      rintro _ ⟨⟩ id hsome
      obtain ⟨s, hs, hsome⟩ := hid id hsome
      exact h.sessionBounded s hs id hsome
    unrecorded := by
      intro t ht id howns
      obtain ⟨hfree, hc⟩ := h.unrecorded t ht id howns
      refine ⟨?_, hc⟩
      rintro _ ⟨⟩ hsome
      obtain ⟨s, hs, hsome⟩ := hid id hsome
      exact hfree s hs hsome
    owned := by
      intro id hlive
      rcases h.owned id hlive with howner | ⟨s, hs, hsome, hk⟩
      · exact .inl howner
      · rcases hkept s id hs hsome hk with hkeeps | hdead
        · exact .inr ⟨s', rfl, hkeeps⟩
        · exact absurd hdead hlive
    recorded := by
      rintro _ ⟨⟩
      exact hrecorded
    quiet := by
      rintro _ ⟨⟩
      exact hquiet }

theorem Honest.wrote (h : Honest d) (hi : d.tasks[i]? = some task) (hs : d.session = some s)
    (hmentions : p'.mentions = none) (hrestoring : p'.restoring = false)
    (howns : task.point.owns = none) (hid : s'.restoreID = s.restoreID)
    (hrecorded : s'.restoreID.isSome = true →
      s'.state.keepsRestore = true ∨ s'.state = .rolledBack)
    (hkeeps : ∀ id, s.restoreID = some id → s.state.keepsRestore = true →
      s'.state.keepsRestore = true ∨ Dead d.restores id)
    (hquiet : s'.state.settled = true → NoOther d i) :
    Honest ((d.setPoint i task p').setSession s') := by
  refine (h.idle hi hmentions hrestoring howns).withSession
    (fun id hsome => ⟨s, hs, hid ▸ hsome⟩) hrecorded (fun s₁ id hs₁ hsome hk => ?_)
    fun hsettled t ht => ?_
  · cases hs₁.symm.trans hs
    exact (hkeeps id hsome hk).imp_left fun hk' => ⟨hid.trans hsome, hk'⟩
  · rcases mem_setPoint ht with rfl | ⟨-, j, hji, hj⟩
    · exact hrestoring
    · exact (hquiet hsettled).of_getElem? hji hj

theorem Honest.handedOver (h : Honest d) (hi : d.tasks[i]? = some task)
    (hpoint : task.point = .prepared id) (hs : d.session = some s) (hstate : s.state = .verified)
    (answer : Answer) :
    Honest ((d.setPoint i task (.done answer)).setSession
      { s with state := .restored, restoreID := some id }) := by
  have htask : task ∈ d.tasks := mem_of_getElem? hi
  have howns : task.point.owns = some id := by rw [hpoint]; rfl
  have hnone : s.restoreID = none := by
    cases hr : s.restoreID with
    | none => rfl
    | some k =>
      have := h.recorded s hs (by simp [hr])
      simp [hstate, keepsRestore] at this
  constructor
  case bounded =>
    intro t ht k hk
    rcases mem_setPoint ht with rfl | ⟨hmem, -⟩
    · cases hk
    · exact h.bounded t hmem k hk
  case sessionBounded =>
    intro s₁ hs₁ k hk
    cases hs₁
    cases hk
    exact h.bounded task htask id (mentions_of_owns howns)
  case exclusive =>
    intro j k tj tk n hj hk howns' hmention
    rcases getElem?_setPoint hj with ⟨rfl, rfl⟩ | ⟨hji, hj'⟩
    · cases howns'
    · rcases getElem?_setPoint hk with ⟨rfl, rfl⟩ | ⟨hki, hk'⟩
      · cases hmention
      · exact h.exclusive j k tj tk n hj' hk' howns' hmention
  case unrecorded =>
    intro t ht k hk
    rcases mem_setPoint ht with rfl | ⟨hmem, j, hji, hj⟩
    · cases hk
    · refine ⟨fun s₁ hs₁ hsome => ?_, (h.unrecorded t hmem k hk).2⟩
      cases hs₁
      cases hsome
      exact hji (h.exclusive j i t task id hj hi hk (mentions_of_owns howns))
  case tornDown =>
    intro t ht k hk
    rcases mem_setPoint ht with rfl | ⟨hmem, -⟩
    · cases hk
    · exact h.tornDown t hmem k hk
  case owned =>
    intro k hlive
    by_cases hk : k = id
    · exact .inr ⟨_, rfl, by rw [hk], rfl⟩
    · rcases h.owned k hlive with ⟨t, ht, ho⟩ | ⟨s₁, hs₁, hsome, -⟩
      · refine .inl ⟨t, setPoint_mem_of_ne hi ht ?_, ho⟩
        rintro rfl
        exact hk (Option.some.inj (ho.symm.trans howns))
      · cases hs₁.symm.trans hs
        simp [hnone] at hsome
  case recorded =>
    intro s₁ hs₁ _
    cases hs₁
    exact .inl rfl
  case quiet =>
    intro s₁ hs₁ hsettled
    cases hs₁
    cases hsettled

/-- Beyond an admitted write-back: a failed restore and a rollback mark the session only while no
other request is between the check of `restore` and its write-back, a rollback only a session whose
restore it has rolled back, and a commit writes a record that is still validated. -/
def CleanPoint (d : Destination) (i : Nat) : Point → Prop
  | .prepareFailed => NoOther d i
  | .rolledBack restoreID => NoRestore d ∧ ∀ s ∈ d.session, s.restoreID = restoreID
  | .committing (.write id) => d.restores.records[id]? = some .validated
  | _ => True

/-- The reaper marks no session that has a restore, and none while a restore is under way, and the
agent does not stop inside a restore. -/
def CleanStep (d : Destination) : Action → Prop
  | .advance i _ => ∀ task ∈ d.tasks[i]?, CleanPoint d i task.point
  | .reapExpired | .boot => ∀ s ∈ d.session, sessionExpired s d.now = true →
      NoRestore d ∧ s.restoreID = none
  | .crash => NoRestore d
  | _ => True

def SettlesCleanly (d : Destination) (a : Action) : Prop := WritesAdmitted d a ∧ CleanStep d a

theorem afterWrite_idle (stored : Option Session) (result : Except (UpdateError Refusal) Session)
    (h : p.owns = none) :
    (p.afterWrite stored result).mentions = none ∧
      (p.afterWrite stored result).restoring = false := by
  unfold afterWrite
  split
  · exact ⟨rfl, rfl⟩
  · cases h
  · exact ⟨rfl, rfl⟩

theorem Honest.unrestored (h : Honest d) (hs : d.session = some s)
    (hkeeps : s.state.keepsRestore = false) (hstate : s.state ≠ .rolledBack) :
    s.restoreID = none := by
  cases hr : s.restoreID with
  | none => rfl
  | some id =>
    rcases h.recorded s hs (by simp [hr]) with hk | hk
    · simp [hkeeps] at hk
    · exact absurd hk hstate

theorem Honest.wroteBack (h : Honest d) (hi : d.tasks[i]? = some task) (hs : d.session = some s)
    (hw : Wrote task.point s s') (hclean : CleanPoint d i task.point)
    (hmentions : p'.mentions = none) (hrestoring : p'.restoring = false)
    (howns : task.point.owns = none) : Honest ((d.setPoint i task p').setSession s') := by
  -- a session that has no restore yet
  have unrestored (hkeeps : s.state.keepsRestore = false) (hstate : s.state ≠ .rolledBack)
      (hid : s'.restoreID = s.restoreID) (hquiet : s'.state.settled = true → NoOther d i) :
      Honest ((d.setPoint i task p').setSession s') :=
    h.wrote hi hs hmentions hrestoring howns hid (by simp [hid, h.unrestored hs hkeeps hstate])
      (by simp [hkeeps]) hquiet
  cases hw with
  | untouched hstate hid =>
    refine h.wrote hi hs hmentions hrestoring howns hid (fun hsome => ?_) (fun id _ hk => ?_)
      fun hsettled j hj hji t ht => ?_
    · rw [hstate]
      exact h.recorded s hs (hid ▸ hsome)
    · exact .inl (hstate ▸ hk)
    · exact h.quiet s hs (hstate ▸ hsettled) t (mem_of_getElem? ht)
  | unrestored hkeeps hstate hsettled hid =>
    exact unrestored hkeeps hstate hid fun hset => by simp [hsettled] at hset
  | failed hp hstate hid =>
    rw [hp] at hclean
    exact unrestored (by simp [hstate, keepsRestore]) (by simp [hstate]) hid
      fun _ => hclean
  | committed hp hstate hid =>
    refine h.wrote hi hs hmentions hrestoring howns hid (fun _ => .inl ?_) (fun _ _ _ => .inl ?_)
      fun hset => ?_
    · rw [hstate]
      rfl
    · rw [hstate]
      rfl
    · rw [hstate] at hset
      cases hset
  | rolledBack restoreID hp hstate hid =>
    rw [hp] at hclean
    obtain ⟨hnone, hread⟩ := hclean
    refine h.wrote hi hs hmentions hrestoring howns hid (fun _ => .inr hstate)
      (fun id hsome _ => ?_) fun _ j hj hji t ht => hnone t (mem_of_getElem? ht)
    refine .inr (h.tornDown task (mem_of_getElem? hi) id ?_)
    rw [hp]
    exact (hread s hs).symm.trans hsome
  | prepared id hp =>
    rw [hp] at howns
    cases howns

theorem Honest.undo (h : Honest d) (hi : d.tasks[i]? = some task)
    (hpoint : task.point = .prepared id) :
    Honest (d.setPoint i task (.rolling .undo (.read id))) := by
  have hstep : RestoreStep d.restores task.point d.restores (.rolling .undo (.read id)) := by
    rw [hpoint]
    refine .same rfl (fun k hk => hk) (fun k hk => ⟨hk, ?_⟩) (fun _ => rfl)
      (fun k hk => by cases hk) fun k hk => .inl hk
    exact (h.unrecorded task (mem_of_getElem? hi) k (by rw [hpoint]; exact hk)).2
  exact h.restoreStep hi hstep

theorem Point.owns_of_writes (h : p.writes) : p.owns = none ∨ ∃ id, p = .prepared id := by
  cases p with
  | prepared id => exact .inr ⟨id, rfl⟩
  | rolling caller p => cases h
  | _ => first | exact .inl rfl | cases h

theorem Honest.advance {work : Work} (h : Honest d) (hclean : SettlesCleanly d (.advance i work))
    (hi : d.tasks[i]? = some task) (hmove : PointMove d task work e p') :
    Honest (e.setPoint i task p') := by
  obtain ⟨hadmitted, hsettles⟩ := hclean
  have htask : task ∈ d.tasks := mem_of_getElem? hi
  have hsettles := hsettles task hi
  cases hmove with
  | @wrote s s' p' hwrites hfound hchange hs hp =>
    have hadmits := hadmitted task hi s (by simp [hfound, Except.toOption])
    rcases owns_of_writes hwrites with howns | ⟨id, hpoint⟩
    · refine h.wroteBack hi hs (change_wrote hchange hadmits) hsettles ?_ ?_ howns
      all_goals rcases hp with rfl | ⟨-, status, code, rfl⟩
      · exact (afterWrite_idle d.session _ howns).1
      · rfl
      · exact (afterWrite_idle d.session _ howns).2
      · rfl
    · rw [hpoint] at hchange hadmits hp
      cases hchange
      rcases hp with rfl | ⟨huploads, -⟩
      · exact h.handedOver hi hpoint hs (by simpa [admits] using hadmits) _
      · cases huploads
  | refused hwrites herr =>
    rcases owns_of_writes hwrites with howns | ⟨id, hpoint⟩
    · obtain ⟨hmentions, hrestoring⟩ := afterWrite_idle d.session (.error _) howns
      exact h.idle hi hmentions hrestoring howns
    · rw [hpoint]
      exact h.undo hi hpoint
  | failed hp => exact h.idle hi rfl rfl (owns_of_ingests hp)
  | stored hp => exact h.idle hi rfl rfl (by rw [hp]; rfl)
  | prepare hp hstep =>
    rename_i p r next
    have hc : ∀ id, PreparePoint.id? p = some id → d.restores.records[id]? ≠ some .committed :=
      fun id hid => (h.unrecorded task htask id (by rw [hp]; exact hid)).2
    by_cases hnew : p = .admission ∧ work = .ok
    · obtain ⟨rfl, rfl⟩ := hnew
      simp only [prepareStep, decide_true, if_true, Option.ite_none_left_eq_some] at hstep
      cases hstep.2
      exact h.admitted hi hp
    · refine h.restoreStep hi ?_
      rw [hp]
      refine prepareStep_restoreStep hstep (fun hadm => ?_) hc
      simpa [hadm] using hnew
  | commit hp =>
    rw [hp] at hsettles
    refine h.restoreStep hi ?_
    rw [hp]
    refine commitStep_restoreStep _ _ fun id hwrite => ?_
    subst hwrite
    exact hsettles
  | rollback hp =>
    refine h.restoreStep hi ?_
    rw [hp]
    exact rollbackStep_restoreStep _ _ _
      (fun id hid => (h.unrecorded task htask id (by rw [hp]; exact hid)).2)
      fun id hid => h.tornDown task htask id (by rw [hp]; exact hid)

/-- A new request owns nothing, works at most on the session's restore, and is about to restore only
when the session is verified. -/
structure Begins (d : Destination) (p : Point) : Prop where
  mentions : ∀ id, p.mentions = some id → ∃ s, d.session = some s ∧ s.restoreID = some id
  owns : p.owns = none
  tornDown : p.tornDown = none
  restoring : p.restoring = true → ∃ s, d.session = some s ∧ s.state = .verified

theorem Begins.idle (hmentions : p.mentions = none) (hrestoring : p.restoring = false) :
    Begins d p where
  mentions id hid := by simp [hmentions] at hid
  owns := by
    cases ho : p.owns with
    | none => rfl
    | some id => simp [mentions_of_owns ho] at hmentions
  tornDown := by
    cases ho : p.tornDown with
    | none => rfl
    | some id => simp [mentions_of_tornDown ho] at hmentions
  restoring h := by simp [hrestoring] at h

theorem Begins.done (answer : Answer) : Begins d (.done answer) := .idle rfl rfl

variable {request : Request} {source : String} {r : Restores}

theorem Starts.begins (h : Starts d request p) : Begins d p := by
  cases h with
  | refused | answered | restored => exact .done _
  | importKey | importManifest | importChunk | verify | hold | forget => exact .idle rfl rfl
  | restore hs hstate => exact ⟨nofun, rfl, rfl, fun _ => ⟨_, hs, hstate⟩⟩
  | commit hs hid | rollback hs hid =>
    refine ⟨fun k hk => ?_, rfl, rfl, fun h => by cases h⟩
    cases hk
    exact ⟨_, hs, hid⟩

theorem mem_addTask (ht : t ∈ (d.addTask source p).tasks) : t ∈ d.tasks ∨ t = ⟨source, p⟩ := by
  simpa [addTask] using ht

theorem Honest.addTask (h : Honest d) (source : String) (hp : Begins d p) :
    Honest (d.addTask source p) := by
  have hget : ∀ j t, (d.addTask source p).tasks[j]? = some t →
      d.tasks[j]? = some t ∨ (j = d.tasks.length ∧ t = ⟨source, p⟩) := by
    intro j t hj
    simp only [Destination.addTask, getElem?_append] at hj
    split at hj
    · exact .inl hj
    · rename_i hge
      cases hk : j - d.tasks.length with
      | zero =>
        rw [hk] at hj
        cases hj
        exact .inr ⟨by omega, rfl⟩
      | succ n => simp [hk] at hj
  constructor
  case bounded =>
    intro t ht id hid
    rcases mem_addTask ht with ht | rfl
    · exact h.bounded t ht id hid
    · obtain ⟨s, hs, hsome⟩ := hp.mentions id hid
      exact h.sessionBounded s hs id hsome
  case sessionBounded => exact h.sessionBounded
  case exclusive =>
    intro j k tj tk id hj hk howns hmentions
    rcases hget j tj hj with hj' | ⟨rfl, rfl⟩
    · rcases hget k tk hk with hk' | ⟨rfl, rfl⟩
      · exact h.exclusive j k tj tk id hj' hk' howns hmentions
      · obtain ⟨s, hs, hsome⟩ := hp.mentions id hmentions
        exact absurd hsome ((h.unrecorded tj (mem_of_getElem? hj') id howns).1 s hs)
    · simp [hp.owns] at howns
  case unrecorded =>
    intro t ht id howns
    rcases mem_addTask ht with ht | rfl
    · exact h.unrecorded t ht id howns
    · simp [hp.owns] at howns
  case tornDown =>
    intro t ht id htorn
    rcases mem_addTask ht with ht | rfl
    · exact h.tornDown t ht id htorn
    · simp [hp.tornDown] at htorn
  case owned =>
    intro id hlive
    rcases h.owned id hlive with ⟨t, ht, howns⟩ | hs
    · exact .inl ⟨t, mem_append_left _ ht, howns⟩
    · exact .inr hs
  case recorded => exact h.recorded
  case quiet =>
    intro s hs hsettled t ht
    rcases mem_addTask ht with ht | rfl
    · exact h.quiet s hs hsettled t ht
    · cases hr : p.restoring with
      | false => rfl
      | true =>
        obtain ⟨s', hs', hstate⟩ := hp.restoring hr
        cases hs'.symm.trans hs
        simp [hstate, settled] at hsettled

theorem Honest.start (h : Honest d) (hm : StartMove d source request e p) :
    Honest (e.addTask source p) := by
  cases hm with
  | refused | held => exact h.addTask source (.done _)
  | @reserved r s hnone hsource hstate hid =>
    have hreserved : Honest (d.setSession s) :=
      h.withSession (by simp [hid]) (by simp [hid]) (by simp [hnone])
        (by simp [hstate, settled])
    exact hreserved.addTask source (.done _)
  | request => exact h.addTask source (startPoint_starts d source request).begins

theorem Honest.reaped (h : Honest d)
    (hclean : ∀ s ∈ d.session, sessionExpired s d.now = true →
      NoRestore d ∧ s.restoreID = none) : Honest d.reapExpired := by
  cases hs : d.session with
  | none =>
    have : d.reapExpired = d := by
      simp only [reapExpired, hs, reap, Option.map_none]
      rw [← hs]
    rw [this]
    exact h
  | some s =>
    cases hx : sessionExpired s d.now with
    | false =>
      have : d.reapExpired = d := by
        simp only [reapExpired, hs, reap, Option.map_some, hx, Bool.false_eq_true,
          if_false]
        rw [← hs]
      rw [this]
      exact h
    | true =>
      obtain ⟨hnone, hid⟩ := hclean s hs hx
      have hreaped : d.reapExpired =
          d.setSession { s with state := .failed, failureReason := expiredReason } := by
        simp [reapExpired, setSession, reap, hs, hx, hid]
      rw [hreaped]
      refine h.withSession (by simp [hid]) (by simp [hid]) (fun s' id hs' hsome => ?_)
        fun _ => hnone
      cases hs.symm.trans hs'
      simp [hid] at hsome

def Stopped (d : Destination) : Prop :=
  d.phase = .down → ∀ t ∈ d.tasks, t.point.mentions = none ∧ t.point.restoring = false

theorem crash_idle (ht : t ∈ d.crash.tasks) :
    t.point.mentions = none ∧ t.point.restoring = false := by
  obtain ⟨t₀, -, rfl⟩ := mem_map.mp ht
  split
  · rename_i answer hdone
    rw [hdone]
    exact ⟨rfl, rfl⟩
  · exact ⟨rfl, rfl⟩

theorem Honest.ofIdle (hidle : ∀ t ∈ d'.tasks, t.point.mentions = none ∧ t.point.restoring = false)
    (hsession : ∀ s, d'.session = some s → ∀ id, s.restoreID = some id →
      id < d'.restores.records.length)
    (howned : ∀ id, ¬Dead d'.restores id →
      ∃ s, d'.session = some s ∧ s.restoreID = some id ∧ s.state.keepsRestore = true)
    (hrecorded : ∀ s, d'.session = some s → s.restoreID.isSome = true →
      s.state.keepsRestore = true ∨ s.state = .rolledBack) : Honest d' where
  bounded t ht id hid := by simp [(hidle t ht).1] at hid
  sessionBounded := hsession
  exclusive i j ti tj id _ hj _ hmentions := by
    simp [(hidle tj (mem_of_getElem? hj)).1] at hmentions
  unrecorded t ht id howns := by
    have := mentions_of_owns howns
    simp [(hidle t ht).1] at this
  tornDown t ht id htorn := by
    have := mentions_of_tornDown htorn
    simp [(hidle t ht).1] at this
  owned id hlive := .inr (howned id hlive)
  recorded := hrecorded
  quiet s _ _ t ht := (hidle t ht).2

theorem Honest.crash (h : Honest d) (hclean : NoRestore d) : Honest d.crash := by
  refine .ofIdle (fun t ht => crash_idle ht) h.sessionBounded (fun id hlive => ?_) h.recorded
  rcases h.owned id hlive with ⟨t, ht, howns⟩ | hs
  · have := hclean t ht
    simp [restoring_of_owns howns] at this
  · exact hs

theorem recoverRecord_induct {outcome : RecoverOutcome} (motive : Restores → Prop) (same : motive r)
    (commits : r.records[id]? = some .validated → motive (r.setRecord id .committed))
    (rolls : r.records[id]? ≠ some .committed → motive (recoverRollback r id outcome)) :
    motive (recoverRecord r id outcome) := by
  unfold recoverRecord
  split
  any_goals exact rolls (by simp [*])
  · rename_i hvalid
    split_ifs
    · exact commits hvalid
    · exact same
    · exact rolls (by simp [hvalid])
  · exact same

theorem recoverRecord_dead {k : Nat} (outcome : RecoverOutcome) (h : Dead r k) :
    Dead (recoverRecord r id outcome) k := by
  have rolled : ∀ {state}, live state = false → Dead (r.setRecord id state) k := by
    intro state hstate st hst
    rcases getElem?_setRecord hst with ⟨-, rfl⟩ | ⟨-, hold⟩
    · exact hstate
    · exact h st hold
  refine recoverRecord_induct (Dead · k) h (fun hvalid st hst => ?_) fun _ => ?_
  · have hk : k ≠ id := by
      rintro rfl
      exact absurd (h _ hvalid) (by decide)
    rw [getElem?_setRecord_ne _ hk] at hst
    exact h st hst
  · cases outcome <;> exact rolled rfl

theorem recoverRecord_length (r : Restores) (id : Nat) (outcome : RecoverOutcome) :
    (recoverRecord r id outcome).records.length = r.records.length := by
  refine recoverRecord_induct (·.records.length = _) rfl (fun _ => length_set) fun _ => ?_
  cases outcome <;> exact length_set

theorem Honest.recover (h : Honest d)
    (hidle : ∀ t ∈ d.tasks, t.point.mentions = none ∧ t.point.restoring = false) (id : Nat)
    (outcome : RecoverOutcome) : Honest (d.setRestores (recoverRecord d.restores id outcome)) := by
  refine .ofIdle hidle (fun s hs k hk => ?_) (fun k hlive => ?_) h.recorded
  · show k < (recoverRecord d.restores id outcome).records.length
    rw [recoverRecord_length]
    exact h.sessionBounded s hs k hk
  · rcases h.owned k fun hdead => hlive (recoverRecord_dead outcome hdead) with
      ⟨t, ht, howns⟩ | hs
    · have := mentions_of_owns howns
      simp [(hidle t ht).1] at this
    · exact hs

theorem Stopped.step (h : Stopped d) (hstep : d.step a = some d') : Stopped d' := by
  cases step_change hstep with
  | start hup hm =>
    intro hdown
    have : d.phase = .down := by cases hm <;> exact hdown
    simp [hup] at this
  | advance hup hi hm => exact fun hdown => absurd (hm.phase.symm.trans hdown) hup
  | reap hup =>
    intro hdown
    have : d.phase = .down := by
      rcases reapExpired_cases d with heq | ⟨s, id, -, -, -, heq⟩ <;>
        · rw [heq] at hdown
          exact hdown
    simp [hup] at this
  | tick | processExit | recover => exact h
  | crash => exact fun _ t ht => crash_idle ht
  | boot | serve => exact fun hdown => by cases hdown

theorem Honest.step (h : Honest d) (hstopped : Stopped d) (hclean : SettlesCleanly d a)
    (hstep : d.step a = some d') : Honest d' := by
  cases step_change hstep with
  | start hup hm => exact h.start hm
  | advance hup hi hm => exact h.advance hclean hi hm
  | reap => exact h.reaped hclean.2
  | tick | processExit | serve => exact { h with }
  | crash => exact h.crash hclean.2
  | recover hdown => exact h.recover (hstopped hdown) _ _
  | boot => exact { h.reaped hclean.2 with }

def Destination.initial (standby : Bool) : Destination := { standby }

theorem honest_initial (standby : Bool) : Honest (initial standby) :=
  .ofIdle (by simp [initial]) (by simp [initial])
    (fun id hlive => absurd (by intro st hst; simp [initial] at hst) hlive)
    (by simp [initial])

theorem stopped_initial (standby : Bool) : Stopped (.initial standby) := by
  simp [Stopped, initial]

instance (d : Destination) (i : Nat) : Decidable (NoOther d i) :=
  inferInstanceAs (Decidable (∀ j < d.tasks.length, j ≠ i → ∀ t ∈ d.tasks[j]?,
    t.point.restoring = false))

instance (d : Destination) : Decidable (NoRestore d) :=
  inferInstanceAs (Decidable (∀ t ∈ d.tasks, t.point.restoring = false))

instance (d : Destination) (i : Nat) : ∀ p, Decidable (CleanPoint d i p)
  | .prepareFailed => inferInstanceAs (Decidable (NoOther d i))
  | .rolledBack restoreID =>
    inferInstanceAs (Decidable (NoRestore d ∧ ∀ s ∈ d.session, s.restoreID = restoreID))
  | .committing (.write id) =>
    inferInstanceAs (Decidable (d.restores.records[id]? = some .validated))
  | .committing (.read _) | .importKey _ | .importManifest _ | .chunkGate _ | .chunkImport ..
  | .verify | .preparing _ | .prepared _ | .committed | .rolling .. | .hold _ | .done _ =>
    isTrue trivial

instance (d : Destination) : ∀ a, Decidable (CleanStep d a)
  | .advance i _ => inferInstanceAs (Decidable (∀ task ∈ d.tasks[i]?, CleanPoint d i task.point))
  | .reapExpired | .boot =>
    inferInstanceAs (Decidable (∀ s ∈ d.session, _ → NoRestore d ∧ s.restoreID = none))
  | .crash => inferInstanceAs (Decidable (NoRestore d))
  | .start .. | .tick | .processExit | .recover .. | .serve => isTrue trivial

instance (d : Destination) (a : Action) : Decidable (SettlesCleanly d a) :=
  inferInstanceAs (Decidable (_ ∧ _))

def verifiedTransfer : List Action :=
  [.start "source" (.reserve (reservationFor none)), .start "source" (.importKey "workload" 1),
    .advance 1 .ok, .start "source" (.importManifest sampleManifest), .advance 2 .ok,
    .start "source" .verify, .advance 3 .ok]

def rolledBackTransfer : List Action :=
  verifiedTransfer ++ [.start "source" .restore] ++ List.replicate 7 (.advance 4 .ok) ++
  [.start "source" .rollback, .advance 5 .ok, .advance 5 .ok, .crash, .recover 0 .complete, .boot,
    .serve, .start "source" .rollback, .advance 6 .ok, .advance 6 .ok]

def repeatedRestore : List Action :=
  verifiedTransfer ++
  [.start "source" .restore, .advance 4 .ok, .start "source" .restore, .advance 5 .fail,
    .advance 5 .ok, .advance 4 .ok, .advance 4 .ok, .advance 4 .ok, .advance 4 .ok]

end Shiftgate.Transfer
