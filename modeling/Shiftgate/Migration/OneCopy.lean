import Shiftgate.Migration.Wiring
import Shiftgate.Transfer.Accounted

/-! At most one live copy. The source resumes a workload that it froze when the destination has told
it that the session is settled, or that there is nothing to settle. Where sessions settle cleanly
both are true and stay true. -/

namespace Shiftgate.Transfer

open Library Checkpoint List

variable {d d' e : Destination} {task : Task} {work : Work} {p : Point} {request : Request}
  {a : Action}

def Ingested (d : Destination) : Prop := ∃ s, d.session = some s ∧ s.state.ingested = true

def Settled (d : Destination) : Prop := ∃ s, d.session = some s ∧ s.state.settled = true

theorem Ingested.step (h : Ingested d) (hadmitted : WritesAdmitted d a)
    (hstep : d.step a = some d') : Ingested d' := by
  obtain ⟨s, hs, hingested⟩ := h
  obtain ⟨s', hs', hforward⟩ := step_forward hstep hadmitted hs
  exact ⟨s', hs', hforward.ingested hingested⟩

theorem Forward.isSettled {s s' : Session} (h : Forward s s') (hs : s.state.settled = true) :
    s'.state.settled = true := by
  cases hstate : s.state <;> simp [hstate, SessionState.settled] at hs
  · rw [h.rolledBack hstate]
    rfl
  · rcases h.failed hstate with hs' | hs' <;> rw [hs'] <;> rfl

theorem Settled.step (h : Settled d) (hadmitted : WritesAdmitted d a)
    (hstep : d.step a = some d') : Settled d' := by
  obtain ⟨s, hs, hsettled⟩ := h
  obtain ⟨s', hs', hforward⟩ := step_forward hstep hadmitted hs
  exact ⟨s', hs', hforward.isSettled hsettled⟩

def Request.cleans : Request → Bool
  | .rollback | .getCleanup => true
  | _ => false

def Point.vacant : Point → Bool
  | .done (.error status _) => status = 404
  | .done (.session s) => !s.state.ingested
  | _ => false

theorem getForCleanup_error {machine : String} {err : AccessError} (hsourced : Sourced machine d)
    (h : getForCleanup d.session machine = .error err) : d.session = none := by
  cases hs : d.session with
  | none => rfl
  | some s => simp [getForCleanup, hs, hsourced s hs] at h

theorem StartMove.vacant {machine : String} (hm : StartMove d machine request e p)
    (hsourced : Sourced machine d) (hr : request.cleans) (hp : p.vacant) : ¬ Ingested d := by
  rintro ⟨s, hs, hingested⟩
  cases hm with
  | refused | held | reserved => cases hr
  | request =>
    cases request with
    | rollback =>
      simp only [Destination.startPoint] at hp
      split at hp
      · rename_i hget
        simp [getForCleanup_error hsourced hget] at hs
      · split at hp
        · cases hp
        · split at hp <;> cases hp
    | getCleanup =>
      simp only [Destination.startPoint] at hp
      split at hp
      · rename_i hget
        simp [getForCleanup_error hsourced hget] at hs
      · rename_i session hget
        cases (getForCleanup_ok hget).1.symm.trans hs
        simp [Point.vacant, hingested] at hp
    | _ => cases hr

theorem PointMove.not_vacant (hm : PointMove d task work e p) (hr : request.cleans)
    (hreaches : request.reaches task.point) : p.vacant = false := by
  have hafter := hm.reaches hreaches
  cases request with
  | rollback =>
    cases hp : task.point with
    | rolling caller q =>
      have hcaller : caller = .handler := by
        rw [hp] at hreaches
        cases caller <;> first | rfl | cases hreaches
      subst hcaller
      obtain ⟨q' | ok, rfl⟩ := hm.rolling hp
      · rfl
      · cases ok <;> rfl
    | rolledBack restoreID =>
      cases hm with
      | wrote hwrites hfound hchange hs hp' =>
        rw [hp] at hchange hp'
        cases hchange
        rcases hp' with rfl | ⟨huploads, -⟩
        · rfl
        · cases huploads
      | @refused err hwrites herr =>
        rw [hp]
        cases err with
        | access err => rfl
        | refused r =>
          obtain ⟨s, -, hc⟩ := writeBack_refused herr
          rw [hp] at hc
          cases hc
      | failed hw =>
        rw [hp] at hw
        cases hw
      | stored hq | prepare hq | commit hq | rollback hq => cases hp.symm.trans hq
    | done answer => exact absurd hp (hm.not_done answer)
    | _ => simp [hp, Request.reaches] at hreaches
  | getCleanup =>
    cases hp : task.point with
    | done answer => exact absurd hp (hm.not_done answer)
    | _ => simp [hp, Request.reaches] at hreaches
  | _ => cases hr

theorem Change.vacant {j : Nat} {t : Task} (hc : Change d a d') (hr : request.cleans)
    (hlt : j < d.tasks.length) (ht : d'.tasks[j]? = some t) (hp : t.point.vacant)
    (hreaches : ∀ t₀, d.tasks[j]? = some t₀ → request.reaches t₀.point) : d.tasks[j]? = some t := by
  cases hc.taskMove ht with
  | same hj => exact hj
  | advanced hi hm hd ht =>
    subst ht
    simp [hm.not_vacant hr (hreaches _ hi)] at hp
  | lost hj ht =>
    subst ht
    cases hp
  | started hj | reaper hj => omega

end Shiftgate.Transfer

namespace Shiftgate.Migration

open Library Checkpoint Transfer List

theorem Call.sends_cleans {machine : String} {c : Call} {request : Request}
    (h : c.sends machine request) : request.cleans ↔ c = .rollback ∨ c = .getCleanup := by
  cases c <;> cases request <;> first | (simp [Request.cleans]; done) | cases h

variable {rest : List Instr} {b : Transfer.Action}

theorem Source.Scripted.no_cleanup (h : Source.Scripted rest) :
    .call .rollback ∉ rest ∧ .call .getCleanup ∉ rest := by
  obtain ⟨whole, hwhole, hsuffix⟩ := h
  obtain ⟨hrollback, hget⟩ := (by decide : ∀ whole ∈ Source.scripts,
    .call .rollback ∉ whole ∧ .call .getCleanup ∉ whole) whole hwhole
  exact ⟨fun hm => hrollback (hsuffix.mem hm), fun hm => hget (hsuffix.mem hm)⟩

theorem Source.Custody.left_run {s : Source} {A B C : Prop} {c : Call} (hs : s.Custody A B C)
    (h : s.pending = some c) (hc : c = .rollback ∨ c = .getCleanup) (rest : List Instr)
    (f : Flags) : s.control ≠ .running rest f := by
  intro hcontrol
  obtain ⟨hrollback, hget⟩ := (hs.driving hcontrol).script.no_cleanup
  cases rest with
  | nil => simp [pending, hcontrol] at h
  | cons i rest =>
    cases i with
    | call c' =>
      simp only [pending, hcontrol, Option.some.injEq] at h
      rcases hc with rfl | rfl <;> simp [h] at hrollback hget
    | _ => simp [pending, hcontrol] at h

namespace System

variable {machine : String} {s t : System} {a : Action}

def SettlesCleanly (s : System) : Action → Prop
  | .destination a => Transfer.SettlesCleanly s.destination a
  | _ => True

def Safe (s : System) : Prop := ¬ s.Asked ∨ Settled s.destination

structure Sole (machine : String) (s : System) : Prop where
  wired : Wired machine s
  stopped : Stopped s.destination
  honest : Honest s.destination
  accounted : Accounted s.destination
  copies : Copies s.destination
  /-- A run past its verification has a verified session. -/
  verified : ∀ rest f, s.source.control = .running rest f → .call .verify ∉ rest →
    Ingested s.destination
  asked : s.Asked → Ingested s.destination
  /-- A source that has begun to clean up has left its run. -/
  left : ∀ attempt ∈ s.attempts, attempt.request.cleans →
    ∀ rest f, s.source.control ≠ .running rest f
  vacant : ∀ attempt ∈ s.attempts, attempt.request.cleans → ∀ (j : Nat) (task : Task),
    attempt.task = some j → s.destination.tasks[j]? = some task → task.point.vacant → ¬ s.Asked
  custody : s.source.Custody s.Safe s.Asked s.Asked

theorem Sole.nothing_runs (h : Sole machine s) (hsafe : s.Safe) :
    s.destination.restores.process = none ∧ s.destination.restores.orphans = [] := by
  rcases hsafe with hasked | ⟨session, hs, hsettled⟩
  · exact ⟨(h.wired.untouched hasked).process, (h.wired.untouched hasked).orphans⟩
  · exact h.accounted.nothing_runs h.honest hs hsettled

section Told

variable {answer : Answer} {r : Reply} {c : Call}

section

variable (h : Sole machine s) (ha : s.answered = some answer)

include h ha

theorem Sole.absent (hr : decode answer = some r) (hpending : s.source.pending = some c)
    (hc : c = .rollback ∨ c = .getCleanup)
    (hvacant : r = .notFound ∨ ∃ state, r = .session state ∧ state.ingested = false) :
    ¬ s.Asked := by
  obtain ⟨c', attempt, j, task, hpending', hsend, hmem, hj, htask, hpoint, -⟩ := h.wired.answered ha
  cases hpending.symm.trans hpending'
  refine h.vacant attempt hmem ((Call.sends_cleans hsend).mpr hc) j task hj htask ?_
  rw [hpoint]
  rcases hvacant with rfl | ⟨state, rfl, hstate⟩
  · obtain ⟨code, rfl⟩ := decode_notFound hr
    rfl
  · obtain ⟨session, rfl, rfl⟩ := decode_session hr
    simp [Point.vacant, hstate]

theorem Sole.settled {state : SessionState} (hr : decode answer = some (.session state))
    (hstate : state.settled = true) : Settled s.destination := by
  obtain ⟨c, attempt, j, task, -, -, -, -, htask, hpoint, -⟩ := h.wired.answered ha
  obtain ⟨session, rfl, rfl⟩ := decode_session hr
  obtain ⟨s', hs', hforward⟩ := h.copies j task session htask (by rw [hpoint]; rfl)
  exact ⟨s', hs', hforward.isSettled hstate⟩

theorem Sole.confirmed (hr : decode answer = some r) (hpending : s.source.pending = some .rollback)
    (hok : r.ok ∨ r = .notFound) : s.Safe := by
  rcases hok with hok | rfl
  · obtain ⟨c, attempt, j, task, hpending', hsend, -, -, htask, hpoint, hreaches⟩ :=
      h.wired.answered ha
    cases hpending.symm.trans hpending'
    have hrequest : attempt.request = .rollback := by
      revert hsend
      cases attempt.request <;> simp [Call.sends]
    rw [hrequest] at hreaches
    obtain ⟨session, rfl, hstate⟩ := decode_reports hr hok hreaches
    obtain ⟨s', hs', hforward⟩ := h.copies j task session htask (by rw [hpoint]; rfl)
    exact .inr ⟨s', hs', hforward.isSettled (by rw [hstate]; rfl)⟩
  · exact .inl (h.absent ha hr hpending (.inl rfl) (.inl rfl))

theorem Sole.probed (hr : decode answer = some r) (hpending : s.source.pending = some .getCleanup)
    (hsafe : Source.probeSafe r) : s.Safe := by
  have absent (hvacant) : s.Safe := .inl (h.absent ha hr hpending (.inr rfl) hvacant)
  cases r with
  | notFound => exact absent (.inl rfl)
  | session state =>
    cases state with
    | reserved | keyReady | manifestReady => exact absent (.inr ⟨_, rfl, rfl⟩)
    | rolledBack | failed => exact .inr (h.settled ha hr rfl)
    | _ => cases hsafe
  | _ => cases hsafe

end

theorem probeSafe_of_settled (h : r.settled) : Source.probeSafe r := by
  cases r with
  | session state => cases state <;> first | rfl | cases h
  | notFound => rfl
  | _ => cases h

section

variable (h : Sole machine s) (ha : s.answered = some answer) (hr : decode answer = some r)

include h ha hr

theorem Sole.told {cancelled : Bool} :
    s.source.Told s.Safe s.Asked s.Asked (.reply r cancelled) := by
  simp only [Source.Told]
  split
  · rename_i call rest f hc
    have hd := h.custody.driving hc
    refine fun _ => ⟨fun hcommit => hd.restored ?_, fun hrestore => ?_⟩
    · have := hd.script.instr (P := fun i rest => i = .call .commit → .call .restore ∉ rest)
        (by decide) (by rw [hcommit])
      simpa [hcommit] using this
    · subst hrestore
      obtain ⟨c, attempt, j, task, hpending, hsend, hmem, -⟩ := h.wired.answered ha
      simp only [Source.pending, hc, Option.some.injEq] at hpending
      subst hpending
      exact ⟨attempt, hmem, Call.restore_sends hsend⟩
  · rename_i hc
    exact h.confirmed ha hr (by simp [Source.pending, hc])
  · rename_i hc
    exact h.probed ha hr (by simp [Source.pending, hc])
  · rename_i hc
    refine ⟨fun hsettled => h.probed ha hr (by simp [Source.pending, hc])
      (probeSafe_of_settled hsettled), ?_⟩
    rintro rfl
    by_contra hasked
    obtain ⟨c, attempt, j, task, -, -, -, -, htask, hpoint, -⟩ := h.wired.answered ha
    obtain ⟨session, rfl, hstate⟩ := decode_session hr
    have := (h.wired.untouched hasked).points j task htask
    simp [hpoint, Point.untouched, hstate] at this
  · trivial

theorem Sole.ingested {f : Flags} (hc : s.source.control = .running (.call .verify :: rest) f)
    (hok : r.ok) : Ingested s.destination := by
  obtain ⟨c, attempt, j, task, hpending, hsend, -, -, htask, hpoint, hreaches⟩ :=
    h.wired.answered ha
  simp only [Source.pending, hc, Option.some.injEq] at hpending
  subst hpending
  have hrequest : attempt.request = .verify := by
    revert hsend
    cases attempt.request <;> simp [Call.sends]
  rw [hrequest] at hreaches
  obtain ⟨session, rfl, hstate⟩ := decode_reports hr hok hreaches
  obtain ⟨s', hs', hforward⟩ := h.copies j task session htask (by rw [hpoint]; rfl)
  exact ⟨s', hs', hforward.ingested (by rw [hstate]; rfl)⟩

end

end Told

section

variable (h : Sole machine s)

include h

theorem Sole.source {e : Source.Event} (hwired : Wired machine t)
    (hdestination : t.destination = s.destination) (hattempts : t.attempts = s.attempts)
    (htold : s.source.Told s.Safe s.Asked s.Asked e) (hverified : ∀ r c rest f, e = .reply r c →
      s.source.control = .running (.call .verify :: rest) f → r.ok → Ingested s.destination)
    (hs : s.source.step e = some t.source) : Sole machine t := by
  have hasked : t.Asked = s.Asked := by
    unfold Asked
    rw [hattempts]
  have hsafe : t.Safe = s.Safe := by
    unfold Safe
    rw [hasked, hdestination]
  have hm := Source.step_move hs
  refine ⟨hwired, hdestination ▸ h.stopped, hdestination ▸ h.honest, hdestination ▸ h.accounted,
    hdestination ▸ h.copies, fun rest f hc hverify => ?_, ?_, fun attempt hmem hr rest f hc => ?_,
    ?_, ?_⟩
  · rw [hdestination]
    rcases hm.running hc with hc | ⟨i, f', hc, hcall⟩
    · exact h.verified rest f hc hverify
    · by_cases hi : i = .call .verify
      · subst hi
        obtain ⟨r, c, he, haccepts⟩ := hcall .verify rfl
        exact hverified r c rest f' he hc haccepts
      · exact h.verified (i :: rest) f' hc (by simp [Ne.symm hi, hverify])
  · rw [hasked, hdestination]
    exact h.asked
  · rw [hattempts] at hmem
    rcases hm.running hc with hc | ⟨i, f', hc, -⟩ <;> exact h.left attempt hmem hr _ _ hc
  · rw [hattempts, hdestination, hasked]
    exact h.vacant
  · rw [hasked, hsafe]
    exact h.custody.move .inl id htold hm

theorem Sole.sent (hm : Move machine s a t) (hsource : t.source = s.source)
    (hdestination : t.destination = s.destination)
    (hattempts : ∀ attempt ∈ t.attempts, attempt ∈ s.attempts ∨ attempt.task = none ∧
      (attempt.request.cleans → ∀ rest f, s.source.control ≠ .running rest f)) :
    Sole machine t := by
  have hleft : ∀ attempt ∈ t.attempts, attempt.request.cleans →
      ∀ rest f, s.source.control ≠ .running rest f := by
    intro attempt hmem hr
    rcases hattempts attempt hmem with hmem | ⟨-, hnew⟩
    · exact h.left attempt hmem hr
    · exact hnew hr
  have hasked := hm.asked
  -- the call for a restore is in progress only in a run that has verified
  have restoring (hpending : s.source.pending = some .restore) : ∃ rest f,
      s.source.control = .running (.call .restore :: rest) f ∧ Ingested s.destination := by
    obtain ⟨rest, f, hc⟩ := Source.pending_restore hpending
    have hverify := (h.custody.driving hc).script.instr
      (P := fun i rest => i = .call .restore → .call .verify ∉ rest) (by decide) rfl
    exact ⟨rest, f, hc, h.verified _ f hc (by simpa using hverify)⟩
  refine ⟨h.wired.move hm, hdestination ▸ h.stopped, hdestination ▸ h.honest,
    hdestination ▸ h.accounted, hdestination ▸ h.copies, ?_, fun ht => ?_, ?_,
    fun attempt hmem hr j task hj htask hp ht => ?_, ?_⟩
  · rw [hsource, hdestination]
    exact h.verified
  · rw [hdestination]
    rcases hasked with hiff | ⟨-, -, hpending⟩
    · exact h.asked (hiff.mp ht)
    · obtain ⟨-, -, -, hingested⟩ := restoring hpending
      exact hingested
  · rw [hsource]
    exact hleft
  · rcases hattempts attempt hmem with hold | ⟨hnone, -⟩
    · rcases hasked with hiff | ⟨-, -, hpending⟩
      · exact h.vacant attempt hold hr j task hj (hdestination ▸ htask) hp (hiff.mp ht)
      · obtain ⟨rest, f, hc, -⟩ := restoring hpending
        exact hleft attempt hmem hr _ f hc
    · simp [hnone] at hj
  · rw [hsource]
    rcases hasked with hiff | ⟨ht, -, hpending⟩
    · have hsafe : t.Safe = s.Safe := by
        unfold Safe
        rw [propext hiff, hdestination]
      rw [hsafe, propext hiff]
      exact h.custody
    · obtain ⟨rest, f, hc, -⟩ := restoring hpending
      exact (h.custody.ask hc ht).mono id fun _ => ht

theorem Sole.destination (hm : Move machine s a t) (hsource : t.source = s.source)
    (hasked : t.Asked ↔ s.Asked) (hclean : Transfer.SettlesCleanly s.destination b)
    (hs : s.destination.step b = some t.destination)
    (hleft : ∀ attempt ∈ t.attempts, ∃ attempt' ∈ s.attempts, attempt'.request = attempt.request)
    (hvacant : ∀ attempt ∈ t.attempts, attempt.request.cleans → ∀ (j : Nat) (task : Task),
      attempt.task = some j → t.destination.tasks[j]? = some task → task.point.vacant →
      ¬ s.Asked) : Sole machine t := by
  have hcopies := h.copies.step hclean.1 hs
  refine ⟨h.wired.move hm, h.stopped.step hs, h.honest.step h.stopped hclean hs,
    h.accounted.step h.honest h.stopped hclean hs, hcopies, fun rest f hc hverify => ?_,
    fun ht => (h.asked (hasked.mp ht)).step hclean.1 hs, fun attempt hmem hr => ?_, ?_, ?_⟩
  · rw [hsource] at hc
    exact (h.verified rest f hc hverify).step hclean.1 hs
  · obtain ⟨attempt', hmem', hrequest⟩ := hleft attempt hmem
    rw [hsource]
    exact h.left attempt' hmem' (hrequest ▸ hr)
  · rw [propext hasked]
    exact hvacant
  · rw [hsource, propext hasked]
    refine h.custody.mono (fun hsafe => ?_) id
    rcases hsafe with hnot | hsettled
    · exact .inl fun ht => hnot (hasked.mp ht)
    · exact .inr (hsettled.step hclean.1 hs)

theorem Sole.vacant_step {destination : Destination} {attempt : Attempt} {j : Nat} {task : Task}
    (hs : s.destination.step b = some destination) (hmem : attempt ∈ s.attempts)
    (hr : attempt.request.cleans) (hj : attempt.task = some j)
    (htask : destination.tasks[j]? = some task) (hp : task.point.vacant) : ¬ s.Asked := by
  obtain ⟨k, hk⟩ := mem_iff_getElem?.mp hmem
  obtain ⟨task₀, htask₀, hreaches⟩ := h.wired.arrived k attempt j hk hj
  have hlt := (List.getElem?_eq_some_iff.mp htask₀).1
  refine h.vacant attempt hmem hr j task hj ?_ hp
  refine (step_change hs).vacant hr hlt htask hp fun t₀ ht₀ => ?_
  cases htask₀.symm.trans ht₀
  exact hreaches

theorem Sole.arrive {k : Nat} {request : Request} {destination : Destination}
    (hk : s.attempts[k]? = some ⟨request, none⟩)
    (hs : s.destination.step (.start machine request) = some destination) :
    Sole machine
      { s with destination
               attempts := s.attempts.set k ⟨request, some s.destination.tasks.length⟩ } := by
  refine h.destination (b := .start machine request) (.arrive hk hs) rfl (asked_set hk rfl)
    ⟨trivial, trivial⟩ hs (fun attempt hmem => ?_) fun attempt hmem hr j task hj htask hp => ?_
  · rcases mem_or_eq_of_mem_set hmem with hmem | rfl
    · exact ⟨attempt, hmem, rfl⟩
    · exact ⟨_, mem_of_getElem? hk, rfl⟩
  · rcases mem_or_eq_of_mem_set hmem with hmem | rfl
    · exact h.vacant_step hs hmem hr hj htask hp
    · cases hj
      refine fun hasked => ?_
      cases (step_change hs).taskMove htask with
      | same hj => simp at hj
      | started hj hm hd ht =>
        subst ht
        exact hm.vacant h.wired.sourced hr hp (h.asked hasked)
      | reaper hj ht =>
        subst ht
        cases hp

theorem Sole.move (hclean : s.SettlesCleanly a) (hm : Move machine s a t) : Sole machine t := by
  have hwired := h.wired.move hm
  cases hm with
  | own hreply hcrash hs =>
    exact h.source hwired rfl rfl (Source.told_of_not_reply hreply)
      (fun r c _ _ he => absurd he (hreply r c)) hs
  | crash => exact h.source (e := .crash) hwired rfl rfl trivial nofun rfl
  | upload hu =>
    refine h.sent (.upload hu) rfl rfl fun attempt hmem => ?_
    rcases mem_append.mp hmem with hmem | hmem
    · exact .inl hmem
    · rw [mem_singleton.mp hmem]
      refine .inr ⟨rfl, fun hr => ?_⟩
      rcases Source.uploads_of hu with ⟨_, _, rfl⟩ | ⟨_, rfl⟩ <;> cases hr
  | send hc hsend =>
    refine h.sent (.send hc hsend) rfl rfl fun attempt hmem => ?_
    rcases mem_append.mp hmem with hmem | hmem
    · exact .inl hmem
    · rw [mem_singleton.mp hmem]
      exact .inr ⟨rfl, fun hr => h.custody.left_run hc ((Call.sends_cleans hsend).mp hr)⟩
  | lose => exact h.sent .lose rfl rfl fun _ => .inl
  | arrive hk hs => exact h.arrive hk hs
  | answer ha hr hs =>
    refine h.source hwired rfl rfl (h.told ha hr) (fun r c rest f he hc hok => ?_) hs
    cases he
    exact h.ingested ha hr hc hok
  | giveUp hs =>
    refine h.source hwired rfl rfl Source.told_failed (fun r c rest f he _ hok => ?_) hs
    cases he
    cases hok
  | destination ha hs =>
    exact h.destination (.destination ha hs) rfl Iff.rfl hclean hs (fun x hx => ⟨x, hx, rfl⟩)
      fun _ hmem hr _ _ hj htask hp => h.vacant_step hs hmem hr hj htask hp

end

theorem initial_sole (mode : Mode) (paused standby : Bool) :
    Sole machine (initial mode paused standby) := by
  have hasked : ¬ (initial mode paused standby).Asked := by
    rintro ⟨attempt, hmem, -⟩
    cases hmem
  refine ⟨initial_wired mode paused standby, stopped_initial standby, honest_initial standby,
    accounted_initial standby, ?_, fun rest f hc hverify => ?_, fun h => absurd h hasked, nofun,
    nofun, initial_custody mode paused standby⟩
  · intro j t s hj
    simp [initial, Destination.initial] at hj
  · cases paused with
    | true =>
      cases hc
      exact absurd (by decide) hverify
    | false =>
      cases hc
      exact absurd (by cases mode <;> decide) hverify

/-- The workload that the source has frozen runs there, or can without another word from the
destination. -/
def MayRun (s : System) : Prop :=
  s.source.froze ∧ ∃ es source, (∀ e ∈ es, ∀ r c, e = Source.Event.reply r c → r = .failed) ∧
    exec Source.step s.source es = some source ∧ source.process = .running

theorem Sole.safe (h : Sole machine s) (hmay : s.MayRun) : s.Safe := by
  obtain ⟨hfroze, es, source, hes, hexec, hrunning⟩ := hmay
  have hkept : source.froze ∧ source.Custody s.Safe s.Asked s.Asked := by
    refine exec_invariant (fun x : Source => x.froze ∧ x.Custody s.Safe s.Asked s.Asked)
      (fun x e y hx he hstep => ?_) ⟨hfroze, h.custody⟩ (Meets.of_forall hes s.source) hexec
    have hm := Source.step_move hstep
    have htold : x.Told s.Safe s.Asked s.Asked e := by
      cases e with
      | reply r c =>
        rw [he r c rfl]
        exact Source.told_failed
      | _ => trivial
    exact ⟨hm.froze hx.1, hx.2.move .inl id htold hm⟩
  exact hkept.2.resumed hkept.1 hrunning

theorem Move.left (hm : Move machine s a t)
    (h : ∀ rest f, s.source.control ≠ .running rest f) (rest : List Instr) (f : Flags) :
    t.source.control ≠ .running rest f := by
  have stepped : ∀ {e source}, s.source.step e = some source →
      source.control ≠ .running rest f := by
    intro e source hs hc
    rcases (Source.step_move hs).running hc with hc | ⟨i, f', hc, -⟩ <;> exact h _ _ hc
  cases hm with
  | own _ _ hs | answer _ _ hs | giveUp hs => exact stepped hs
  | crash => nofun
  | upload | send | arrive | lose | destination => exact h rest f

theorem Move.settled (hm : Move machine s a t) (hclean : s.SettlesCleanly a)
    (h : Settled s.destination) : Settled t.destination := by
  cases hm with
  | @arrive k request destination hk hs =>
    have hadmitted : WritesAdmitted s.destination (.start machine request) := trivial
    exact h.step hadmitted hs
  | destination ha hs => exact h.step hclean.1 hs
  | own | crash | upload | send | lose | answer | giveUp => exact h

theorem Safe.move (hsafe : s.Safe) (hclean : s.SettlesCleanly a) (hm : Move machine s a t)
    (hnew : a ≠ .send .restore ∨ ∀ rest f, s.source.control ≠ .running rest f) : t.Safe := by
  rcases hm.asked with hiff | ⟨-, ha, hpending⟩
  · rcases hsafe with hnot | hsettled
    · exact .inl fun ht => hnot (hiff.mp ht)
    · exact .inr (hm.settled hclean hsettled)
  · rcases hnew with hne | hleft
    · exact absurd ha hne
    · obtain ⟨rest, f, hc⟩ := Source.pending_restore hpending
      exact absurd hc (hleft _ f)

instance (s : System) : ∀ a, Decidable (s.SettlesCleanly a)
  | .destination a => inferInstanceAs (Decidable (Transfer.SettlesCleanly s.destination a))
  | .source _ | .send _ | .arrive _ | .lose | .answer _ | .giveUp _ => isTrue trivial

def rolledBackMove : List Action :=
  toRestore ++ calls 4 .restore 7 ++ ownSteps 1 ++ [.send .get, .giveUp false] ++ ownSteps 2 ++
  [.send .rollback, .arrive 6] ++ serves 5 5 ++ [.answer false] ++ ownSteps 1

def overtakenRestore : List Action :=
  toRestore ++ [.send .restore, .arrive 4] ++ serves 4 1 ++ [.giveUp false] ++ ownSteps 2 ++
  calls 5 .rollback 1 ++ ownSteps 1 ++ serves 4 4

end System

end Shiftgate.Migration
