import Shiftgate.Migration.System
import Shiftgate.Transfer.Answers

/-! How source and destination hang together. `System.Move` lists the steps of the migration, and
`Wired` says where the requests are and that a destination not asked to restore is untouched. -/

namespace Shiftgate.Migration

open Library Checkpoint Transfer List Option

variable {c : Call} {request : Request} {k : Nat} {attempt : Attempt} {attempts : List Attempt}
  {destination : Destination}

theorem Call.sends_restore {machine : String} (h : c.sends machine .restore) : c = .restore := by
  cases c <;> first | rfl | cases h

theorem Call.sends_commit {machine : String} (h : Call.commit.sends machine request) :
    request = .commit := by
  cases request <;> first | rfl | cases h

theorem Call.restore_sends {machine : String} (h : Call.restore.sends machine request) :
    request = .restore := by
  cases request <;> first | rfl | cases h

theorem Source.uploads_of {s : Source} (h : s.uploads request) :
    (∃ version size, request = .importChunk version size) ∨
      ∃ manifest, request = .importManifest manifest := by
  cases request with
  | importChunk version size => exact .inl ⟨version, size, rfl⟩
  | importManifest manifest => exact .inr ⟨manifest, rfl⟩
  | _ => cases h

theorem Source.pending_restore {s : Source} (h : s.pending = some .restore) :
    ∃ rest f, s.control = .running (.call .restore :: rest) f := by
  unfold pending at h
  split at h
  · cases h
    exact ⟨_, _, ‹_›⟩
  all_goals cases h

theorem Source.step_waiting {s t : Source} {e : Event} (hp : s.pending = some c)
    (hs : s.step e = some t) (hreply : ∀ r c, e ≠ .reply r c) (hcrash : e ≠ .crash) :
    t.control = s.control := by
  unfold pending at hp
  cases e with
  | step ok cancelled =>
    simp only [step] at hs
    split at hp
    · rename_i hc
      simp [hc, runStep] at hs
    · rename_i hc
      simp [hc, handlerStep] at hs
    · rename_i hc
      simp [hc, handlerStep] at hs
    · rename_i hc
      simp [hc] at hs
    · cases hp
  | reply r cancelled => exact absurd rfl (hreply r cancelled)
  | stop outcome =>
    simp only [step] at hs
    split at hs
    · rename_i hc
      simp [hc] at hp
    · cases hs
  | exit written =>
    simp only [step] at hs
    split_ifs at hs <;> cases hs <;> rfl
  | crash => exact absurd rfl hcrash
  | recover client =>
    simp only [step] at hs
    split_ifs at hs with hc
    simp [hc] at hp

section Decode

variable {answer : Answer} {r : Reply} {state : SessionState}

theorem decode_session (h : decode answer = some (.session state)) :
    ∃ s, answer = .session s ∧ s.state = state := by
  cases answer with
  | session s =>
    cases h
    exact ⟨s, rfl, rfl⟩
  | error status code =>
    simp only [decode] at h
    split_ifs at h <;> cases h
  | _ => cases h

theorem decode_reports (h : decode answer = some r) (hr : r.ok) (hreports : answer.reports state) :
    ∃ s, answer = .session s ∧ s.state = state := by
  cases answer with
  | session s => exact ⟨s, rfl, by simpa [Answer.reports] using hreports⟩
  | error status code =>
    simp only [decode] at h
    split_ifs at h <;> cases h <;> cases hr
  | lost => cases h
  | restore | missing => cases hreports

theorem decode_notFound (h : decode answer = some .notFound) :
    ∃ code, answer = .error 404 code := by
  cases answer with
  | error status code =>
    simp only [decode] at h
    split_ifs at h with _ hstatus
    · exact ⟨code, by rw [hstatus]⟩
    · cases h
  | _ => cases h

end Decode

namespace System

variable {machine : String} {s t : System} {a : Action}

inductive Move (machine : String) (s : System) : Action → System → Prop
  | own {e : Source.Event} {source : Source} (hreply : ∀ r c, e ≠ .reply r c) (hcrash : e ≠ .crash)
      (hs : s.source.step e = some source) : Move machine s (.source e) { s with source }
  | crash : Move machine s (.source .crash)
      { s with source := s.source.goto .down, waiting := none, sent := 0 }
  | upload {request : Request} (hu : s.source.uploads request) :
      Move machine s (.send request) { s with attempts := s.attempts ++ [{ request }] }
  | send {request : Request} {c : Call} (hc : s.source.pending = some c)
      (hr : c.sends machine request) :
      Move machine s (.send request)
        { s with attempts := s.attempts ++ [{ request }], waiting := some s.attempts.length,
                 sent := s.sent + 1 }
  | arrive {k : Nat} {request : Request} {destination : Destination}
      (hk : s.attempts[k]? = some ⟨request, none⟩)
      (hs : s.destination.step (.start machine request) = some destination) :
      Move machine s (.arrive k)
        { s with destination
                 attempts := s.attempts.set k ⟨request, some s.destination.tasks.length⟩ }
  | lose : Move machine s .lose { s with waiting := none }
  | answer {answer : Answer} {r : Reply} {c : Bool} {source : Source}
      (ha : s.answered = some answer) (hr : decode answer = some r)
      (hs : s.source.step (.reply r c) = some source) :
      Move machine s (.answer c) { s with source, waiting := none, sent := 0 }
  | giveUp {c : Bool} {source : Source} (hs : s.source.step (.reply .failed c) = some source) :
      Move machine s (.giveUp c) { s with source, waiting := none, sent := 0 }
  | destination {a : Transfer.Action} {destination : Destination}
      (ha : ∀ source request, a ≠ .start source request)
      (hs : s.destination.step a = some destination) :
      Move machine s (.destination a) { s with destination }

theorem step_move (h : step machine s a = some t) : Move machine s a t := by
  have own {e} (hreply : ∀ r c, e ≠ .reply r c) (hcrash : e ≠ .crash)
      (h : (s.source.step e).map (fun source => { s with source }) = some t) :
      Move machine s (.source e) t := by
    obtain ⟨source, hs, rfl⟩ := map_eq_some_iff.mp h
    exact .own hreply hcrash hs
  have destination {a} (ha : ∀ source request, a ≠ .start source request)
      (h : (s.destination.step a).map (fun destination => { s with destination }) = some t) :
      Move machine s (.destination a) t := by
    obtain ⟨d, hs, rfl⟩ := map_eq_some_iff.mp h
    exact .destination ha hs
  cases a with
  | source e =>
    cases e with
    | reply r c => cases h
    | crash =>
      cases h
      exact .crash
    | _ => exact own nofun nofun h
  | send request =>
    simp only [step] at h
    split_ifs at h with hu
    · cases h
      exact .upload hu
    · split at h
      · cases h
      · rename_i c hc
        split_ifs at h with hsend
        cases h
        exact .send hc hsend.1
  | arrive k =>
    simp only [step] at h
    split at h
    · rename_i request hk
      obtain ⟨d, hs, rfl⟩ := map_eq_some_iff.mp h
      exact .arrive hk hs
    · cases h
  | lose =>
    simp only [step] at h
    split_ifs at h
    cases h
    exact .lose
  | answer c =>
    obtain ⟨r, hanswer, h⟩ := bind_eq_some_iff.mp h
    obtain ⟨answer, ha, hr⟩ := bind_eq_some_iff.mp hanswer
    obtain ⟨source, hs, rfl⟩ := map_eq_some_iff.mp h
    exact .answer ha hr hs
  | giveUp c =>
    simp only [step] at h
    split_ifs at h
    obtain ⟨source, hs, rfl⟩ := map_eq_some_iff.mp h
    exact .giveUp hs
  | destination a =>
    cases a with
    | start source request => cases h
    | _ => exact destination nofun h

def Asked (s : System) : Prop := ∃ attempt ∈ s.attempts, attempt.request = .restore

theorem asked_set (hk : s.attempts[k]? = some ⟨request, none⟩)
    (hattempt : attempt.request = request) :
    (∃ x ∈ s.attempts.set k attempt, x.request = .restore) ↔ s.Asked := by
  have hmap : (s.attempts.set k attempt).map (·.request) = s.attempts.map (·.request) := by
    refine ext_getElem? fun j => ?_
    simp only [getElem?_map, getElem?_set]
    split_ifs with hkj hlt
    · subst hkj
      simp [hk, hattempt]
    · subst hkj
      rw [getElem?_eq_none (by omega)] at hk
      cases hk
    · rfl
  have hmem : ∀ l : List Attempt, (∃ x ∈ l, x.request = .restore) ↔
      Request.restore ∈ l.map (·.request) := by
    intro l
    simp [List.mem_map]
  rw [hmem, hmap, ← hmem]
  rfl

theorem asked_append (hr : request ≠ .restore) :
    (∃ x ∈ s.attempts ++ [(⟨request, none⟩ : Attempt)], x.request = .restore) ↔ s.Asked := by
  constructor
  · rintro ⟨x, hmem, hx⟩
    rcases mem_append.mp hmem with hmem | hmem
    · exact ⟨x, hmem, hx⟩
    · rw [mem_singleton.mp hmem] at hx
      exact absurd hx hr
  · rintro ⟨x, hmem, hx⟩
    exact ⟨x, mem_append_left _ hmem, hx⟩

theorem Move.asked (hm : Move machine s a t) :
    (t.Asked ↔ s.Asked) ∨
      t.Asked ∧ a = .send .restore ∧ s.source.pending = some .restore := by
  cases hm with
  | own | crash | lose | answer | giveUp | destination => exact .inl Iff.rfl
  | upload hu =>
    refine .inl (asked_append ?_)
    rintro rfl
    rcases Source.uploads_of hu with ⟨_, _, h⟩ | ⟨_, h⟩ <;> cases h
  | @send request c hc hsend =>
    by_cases hr : request = .restore
    · subst hr
      rw [Call.sends_restore hsend] at hc
      exact .inr ⟨⟨⟨.restore, none⟩, by simp, rfl⟩, rfl, hc⟩
    · exact .inl (asked_append hr)
  | arrive hk => exact .inl (asked_set hk rfl)

theorem Move.asked_mono (hm : Move machine s a t) (h : s.Asked) : t.Asked := by
  rcases hm.asked with hiff | ⟨h, -⟩
  · exact hiff.mpr h
  · exact h

structure Wired (machine : String) (s : System) : Prop where
  /-- The client waits for an attempt of its call. -/
  waiting : ∀ k, s.waiting = some k → ∃ attempt c, s.attempts[k]? = some attempt ∧
    s.source.pending = some c ∧ c.sends machine attempt.request
  arrived : ∀ (k : Nat) (attempt : Attempt) (j : Nat), s.attempts[k]? = some attempt →
    attempt.task = some j → ∃ task, s.destination.tasks[j]? = some task ∧
      attempt.request.reaches task.point
  untouched : ¬ s.Asked → Untouched s.destination
  sourced : Sourced machine s.destination

theorem getElem?_append_attempt {j : Nat} (h : (attempts ++ [⟨request, none⟩])[k]? = some attempt)
    (hj : attempt.task = some j) : attempts[k]? = some attempt := by
  rcases Nat.lt_or_ge k attempts.length with hlt | hge
  · rwa [getElem?_append_left hlt] at h
  · rw [getElem?_append_right hge] at h
    cases hk : k - attempts.length with
    | zero =>
      rw [hk] at h
      cases h
      cases hj
    | succ n => simp [hk] at h

theorem getElem?_append_of_some (h : attempts[k]? = some attempt) (x : Attempt) :
    (attempts ++ [x])[k]? = some attempt := by
  rw [getElem?_append_left (List.getElem?_eq_some_iff.mp h).1]
  exact h

theorem Wired.arrived_step {b : Transfer.Action} {j : Nat} (hw : Wired machine s)
    (hs : s.destination.step b = some destination) (hk : s.attempts[k]? = some attempt)
    (hj : attempt.task = some j) :
    ∃ task, destination.tasks[j]? = some task ∧ attempt.request.reaches task.point := by
  obtain ⟨task, htask, hreaches⟩ := hw.arrived k attempt j hk hj
  exact (step_change hs).reaches htask hreaches

theorem Wired.arrive (hw : Wired machine s) (hk : s.attempts[k]? = some ⟨request, none⟩)
    (hs : s.destination.step (.start machine request) = some destination) :
    Wired machine
      { s with destination
               attempts := s.attempts.set k ⟨request, some s.destination.tasks.length⟩ } where
  waiting n hn := by
    obtain ⟨attempt, c, hattempt, hc, hsend⟩ := hw.waiting n hn
    by_cases hkn : k = n
    · subst hkn
      cases hk.symm.trans hattempt
      have hlt := (List.getElem?_eq_some_iff.mp hk).1
      exact ⟨⟨request, some s.destination.tasks.length⟩, c, by simp [hlt], hc, hsend⟩
    · exact ⟨attempt, c, by simp [getElem?_set_ne hkn, hattempt], hc, hsend⟩
  arrived n attempt j hn hj := by
    by_cases hkn : k = n
    · subst hkn
      have hlt := (List.getElem?_eq_some_iff.mp hk).1
      simp only [getElem?_set_self hlt, some.injEq] at hn
      subst hn
      cases hj
      cases step_change hs with
      | @start _ _ e p hup hm =>
        exact ⟨⟨machine, p⟩, by simp [Destination.addTask, hm.tasks], hm.reaches⟩
    · rw [getElem?_set_ne hkn] at hn
      exact hw.arrived_step hs hn hj
  untouched h := by
    have hasked : ¬ s.Asked := fun ha => h ((asked_set hk rfl).mpr ha)
    refine (hw.untouched hasked).step hs fun source hstart => hasked ?_
    cases hstart
    exact ⟨_, mem_of_getElem? hk, rfl⟩
  sourced := hw.sourced.step hs fun source r h => by
    cases h
    rfl

theorem Wired.move (hw : Wired machine s) (hm : Move machine s a t) : Wired machine t := by
  cases hm with
  | own hreply hcrash hs =>
    refine ⟨fun k hk => ?_, hw.arrived, hw.untouched, hw.sourced⟩
    obtain ⟨attempt, c, hattempt, hc, hsend⟩ := hw.waiting k hk
    refine ⟨attempt, c, hattempt, ?_, hsend⟩
    have hcontrol := Source.step_waiting hc hs hreply hcrash
    simp only [Source.pending, hcontrol]
    exact hc
  | crash | lose | answer | giveUp => exact ⟨nofun, hw.arrived, hw.untouched, hw.sourced⟩
  | upload hu =>
    refine ⟨fun k hk => ?_, fun k attempt j hk hj => ?_, fun h => ?_, hw.sourced⟩
    · obtain ⟨attempt, c, hattempt, hc, hsend⟩ := hw.waiting k hk
      exact ⟨attempt, c, getElem?_append_of_some hattempt _, hc, hsend⟩
    · exact hw.arrived k attempt j (getElem?_append_attempt hk hj) hj
    · exact hw.untouched fun ha => h ((@Move.upload machine s _ hu).asked_mono ha)
  | @send request c hc hr =>
    refine ⟨fun k hk => ?_, fun k attempt j hk hj => ?_, fun h => ?_, hw.sourced⟩
    · cases hk
      exact ⟨⟨request, none⟩, c, by simp, hc, hr⟩
    · exact hw.arrived k attempt j (getElem?_append_attempt hk hj) hj
    · exact hw.untouched fun ha => h ((Move.send hc hr).asked_mono ha)
  | arrive hk hs => exact hw.arrive hk hs
  | destination ha hs =>
    refine ⟨hw.waiting, fun k attempt j hk hj => hw.arrived_step hs hk hj, fun h => ?_, ?_⟩
    · exact (hw.untouched h).step hs fun source => ha source _
    · exact hw.sourced.step hs fun source request h => absurd h (ha source request)

theorem initial_wired (mode : Mode) (paused standby : Bool) :
    Wired machine (initial mode paused standby) where
  waiting := nofun
  arrived := nofun
  untouched _ := ⟨rfl, rfl, rfl, nofun, nofun⟩
  sourced := nofun

theorem initial_custody {A B : Prop} (mode : Mode) (paused standby : Bool) :
    (initial mode paused standby).source.Custody A B (initial mode paused standby).Asked := by
  have hasked : ¬ (initial mode paused standby).Asked := by
    rintro ⟨attempt, hmem, -⟩
    cases hmem
  cases paused with
  | true => exact .ofAdmitted runPaused (by simp [Source.scripts]) rfl rfl rfl hasked
  | false =>
    exact .ofAdmitted (run mode) (by cases mode <;> simp [Source.scripts]) rfl rfl rfl hasked

theorem Wired.answered (hw : Wired machine s) {answer : Answer} (ha : s.answered = some answer) :
    ∃ c attempt j task, s.source.pending = some c ∧ c.sends machine attempt.request ∧
      attempt ∈ s.attempts ∧ attempt.task = some j ∧ s.destination.tasks[j]? = some task ∧
      task.point = .done answer ∧ attempt.request.reaches (.done answer) := by
  unfold System.answered at ha
  simp only [bind_eq_bind, bind_eq_some_iff] at ha
  obtain ⟨k, hk, attempt, hattempt, j, hj, task, htask, hpoint⟩ := ha
  split at hpoint
  · rename_i found hdone
    cases hpoint
    obtain ⟨attempt', c, hattempt', hc, hsend⟩ := hw.waiting k hk
    cases hattempt.symm.trans hattempt'
    obtain ⟨task', htask', hreaches⟩ := hw.arrived k attempt j hattempt hj
    cases htask.symm.trans htask'
    exact ⟨c, attempt, j, task, hc, hsend, mem_of_getElem? hattempt, hj, htask, hdone,
      hdone ▸ hreaches⟩
  · cases hpoint

end System

end Shiftgate.Migration
