import Shiftgate.Migration.Moves

/-! What the source concludes from the destination's answers. `Custody A B C` follows three facts
through its flags and points: no copy of the workload can run there (`A`), the restore is committed
(`B`), a restore has been asked for (`C`). -/

namespace Shiftgate.Migration.Source

open List

variable {s t : Source} {e : Event} {i : Instr} {rest : List Instr} {f : Flags} {h : Handling}
  {A B C : Prop}

def scripts : List (List Instr) := [run .cold, run .live, runPaused]

def Scripted (rest : List Instr) : Prop := ∃ whole ∈ scripts, rest <:+ whole

theorem Scripted.tail (h : Scripted (i :: rest)) : Scripted rest := by
  obtain ⟨whole, hwhole, hr⟩ := h
  exact ⟨whole, hwhole, (suffix_cons i rest).trans hr⟩

theorem Scripted.instr {P : Instr → List Instr → Prop} (h : Scripted (i :: rest))
    (hp : ∀ whole ∈ scripts, ∀ place ∈ whole.tails, ∀ i ∈ place.head?, P i place.tail) :
    P i rest := by
  obtain ⟨whole, hwhole, hr⟩ := h
  exact hp whole hwhole (i :: rest) ((mem_tails _ _).mpr hr) i rfl

/-- Inside `run` the workload is not resumed, and the calls that are over have been answered. -/
structure Driving (B C : Prop) (s : Source) (rest : List Instr) (f : Flags) : Prop where
  script : Scripted rest
  frozen : s.froze → s.process ≠ .running
  unfrozen : .checkpoint .stop ∈ rest → s.froze = false
  reserved : f.reserved = false → .call .reserve ∈ rest
  flagged : f.committed → B
  committed : .call .commit ∉ rest → B
  restored : .call .restore ∉ rest → C
  asked : C → .call .restore ∉ rest.tail
  marked : .checkpoint .mark ∉ rest → .checkpointPaused ∉ rest → s.process = .stopped →
    s.status = .checkpointed

def Placing (A B C : Prop) (s : Source) : Prop :=
  match s.control with
  | .running rest f => s.Driving B C rest f
  | .undoing f _ | .undone f _ | .noting f _ => ¬ C ∧ (f.committed → B)
  | .handling point f h => (f.reserved = false → A) ∧ (h.safe → A) ∧ (f.committed → B) ∧
      (point = .thawed → s.process ≠ .stopped)
  | .recovering f => f.reserved ∧ f.committed = false
  | .stopping .. => B
  | .preserving _ | .completing _ | .forcing _ => B ∧ 0 < s.stopCalls
  | .down | .idle => True

structure Custody (A B C : Prop) (s : Source) : Prop where
  preserved : s.sourcePreserved = false → 0 < s.stopCalls
  resumed : s.froze → s.process = .running → A
  marked : C → s.process = .stopped → s.status = .checkpointed
  placing : s.Placing A B C

def Told (A B C : Prop) (s : Source) : Event → Prop
  | .reply r _ =>
    match s.control with
    | .running (.call c :: _) _ => c.accepts r → (c = .commit → B) ∧ (c = .restore → C)
    | .handling (.rollback _) _ _ => r.ok ∨ r = .notFound → A
    | .handling .probe _ _ => probeSafe r → A
    | .recovering _ => (r.settled → A) ∧ (r = .session .committed → B)
    | _ => True
  | _ => True

variable {c : Bool} {point : HandlerPoint} {site : StopSite} {left : Nat} {f' : Flags}
  {step : CheckpointStep}

theorem told_failed : s.Told A B C (.reply .failed c) := by
  simp only [Told]
  split
  · rename_i call _ _ _
    cases call <;> simp [Call.accepts, Reply.ok]
  · simp [Reply.ok]
  · simp [probeSafe]
  · simp [Reply.settled]
  · trivial

theorem told_of_not_reply (he : ∀ r c, e ≠ .reply r c) : s.Told A B C e := by
  cases e with
  | reply r c => exact absurd rfl (he r c)
  | _ => trivial

section

variable (hs : s.Custody A B C)

include hs

theorem Custody.driving (hc : s.control = .running rest f) : s.Driving B C rest f := by
  have := hs.placing
  rwa [Placing, hc] at this

theorem Custody.handling (hc : s.control = .handling point f h) :
    (f.reserved = false → A) ∧ (h.safe → A) ∧ (f.committed → B) ∧
      (point = .thawed → s.process ≠ .stopped) := by
  have := hs.placing
  rwa [Placing, hc] at this

theorem Custody.undoing
    (hc : s.control = .undoing f c ∨ s.control = .undone f c ∨ s.control = .noting f c) :
    ¬ C ∧ (f.committed → B) := by
  have := hs.placing
  rcases hc with hc | hc | hc <;> rwa [Placing, hc] at this

theorem Custody.recovering (hc : s.control = .recovering f) : f.reserved ∧ f.committed = false := by
  have := hs.placing
  rwa [Placing, hc] at this

theorem Custody.stopping (hc : s.control = .stopping site left) : B := by
  have := hs.placing
  rwa [Placing, hc] at this

theorem Custody.finished {stopped : Bool}
    (hc : s.control = .preserving stopped ∨ s.control = .completing stopped ∨
      s.control = .forcing stopped) : B ∧ 0 < s.stopCalls := by
  have := hs.placing
  rcases hc with hc | hc | hc <;> rwa [Placing, hc] at this

theorem Custody.mono {A' B' : Prop} (hA : A → A') (hB : B → B') :
    s.Custody A' B' C where
  preserved := hs.preserved
  resumed hf hp := hA (hs.resumed hf hp)
  marked := hs.marked
  placing := by
    have hplacing := hs.placing
    unfold Placing at hplacing ⊢
    split
    · rename_i hc
      obtain ⟨h1, h2, h3, h4, h5, h6, h7, h8, h9⟩ := hs.driving hc
      exact ⟨h1, h2, h3, h4, fun hf => hB (h5 hf), fun hm => hB (h6 hm), h7, h8, h9⟩
    all_goals simp_all

theorem Custody.ask {A' C' : Prop} (hc : s.control = .running (.call .restore :: rest) f)
    (hC' : C') : s.Custody A' B C' := by
  have hd := hs.driving hc
  obtain ⟨honce, hmark, hpaused⟩ := hd.script.instr (P := fun i rest => i = .call .restore →
    .call .restore ∉ rest ∧ .checkpoint .mark ∉ rest ∧ .checkpointPaused ∉ rest)
    (by decide) rfl
  have hmarked := hd.marked (by simpa using hmark) (by simpa using hpaused)
  refine ⟨hs.preserved, fun hf hp => absurd hp (hd.frozen hf), fun _ => hmarked, ?_⟩
  rw [Placing, hc]
  exact ⟨hd.script, hd.frozen, hd.unfrozen, hd.reserved, hd.flagged, hd.committed, fun _ => hC',
    fun _ => honce, hd.marked⟩

end

theorem Driving.next (hd : s.Driving B C (i :: rest) f) (hfroze : t.froze = s.froze)
    (hprocess : t.process = s.process) (hstatus : t.status = s.status)
    (hmark : i ≠ .checkpoint .mark) (hpaused : i ≠ .checkpointPaused)
    (hreserved : f'.reserved = false → f.reserved = false ∧ i ≠ .call .reserve)
    (hflagged : f'.committed → B) (hcommit : i = .call .commit → B)
    (hrestore : i = .call .restore → C) : t.Driving B C rest f' where
  script := hd.script.tail
  frozen := by
    rw [hfroze, hprocess]
    exact hd.frozen
  unfrozen hm := hfroze ▸ hd.unfrozen (by simp [hm])
  reserved hf := by
    obtain ⟨hf', hi⟩ := hreserved hf
    exact (mem_cons.mp (hd.reserved hf')).resolve_left (Ne.symm hi)
  flagged := hflagged
  committed hm := by
    by_cases hi : i = .call .commit
    · exact hcommit hi
    · exact hd.committed (by simp [Ne.symm hi, hm])
  restored hm := by
    by_cases hi : i = .call .restore
    · exact hrestore hi
    · exact hd.restored (by simp [Ne.symm hi, hm])
  asked hC hm := hd.asked hC (mem_of_mem_tail hm)
  marked hm hm' := by
    rw [hprocess, hstatus]
    exact hd.marked (by simp [hmark.symm, hm]) (by simp [hpaused.symm, hm'])

theorem Driving.toCustody (hc : s.control = .running rest f) (hd : s.Driving B C rest f)
    (hp : s.sourcePreserved = false → 0 < s.stopCalls)
    (hm : C → s.process = .stopped → s.status = .checkpointed) : s.Custody A B C where
  preserved := hp
  resumed hf hr := absurd hr (hd.frozen hf)
  marked := hm
  placing := by rwa [Placing, hc]

theorem Driving.unasked (hd : s.Driving B C (i :: rest) f)
    (hi : (∃ step, i = .checkpoint step) ∨ .call .reserve ∈ i :: rest) : ¬ C := by
  intro hC
  refine hd.asked hC ?_
  refine hd.script.instr (P := fun i rest => i ∈ checkpointSteps ∨ .call .reserve ∈ i :: rest →
    .call .restore ∈ rest) (by decide) (hi.imp_left ?_)
  rintro ⟨step, rfl⟩
  cases step <;> decide

theorem Custody.fails (hCA : ¬ C → A) (hs : s.Custody A B C)
    (hc : s.control = .running (i :: rest) f) : (s.fail f c).Custody A B C where
  preserved := hs.preserved
  resumed := hs.resumed
  marked := hs.marked
  placing := by
    have hd := hs.driving hc
    exact ⟨fun hf => hCA (hd.unasked (.inr (hd.reserved hf))), nofun, hd.flagged, nofun⟩

theorem Driving.own (hd : s.Driving B C (i :: rest) f) (hfroze : t.froze = s.froze)
    (hprocess : t.process = s.process) (hstatus : t.status = s.status)
    (hi : i.passes ∨ i.notes ∨ i.claims ∨ i = .readWorkload ∨ ∃ stage, i = .transition stage)
    (hreserved : f'.reserved = f.reserved) (hcommitted : f'.committed = f.committed) :
    t.Driving B C rest f' := by
  have hcall : ∀ c, i ≠ .call c := by
    rintro c rfl
    rcases hi with hi | hi | hi | hi | ⟨stage, hi⟩ <;> cases hi
  have hmark : i ≠ .checkpoint .mark := by
    rintro rfl
    rcases hi with hi | hi | hi | hi | ⟨stage, hi⟩ <;> cases hi
  have hpaused : i ≠ .checkpointPaused := by
    rintro rfl
    rcases hi with hi | hi | hi | hi | ⟨stage, hi⟩ <;> cases hi
  refine hd.next hfroze hprocess hstatus hmark hpaused (fun hf => ⟨hreserved ▸ hf, hcall _⟩)
    (fun hf => hd.flagged (hcommitted ▸ hf)) (fun h => absurd h (hcall _))
    fun h => absurd h (hcall _)

theorem Driving.replied {call : Call} (hd : s.Driving B C (.call call :: rest) f)
    (hcommit : call = .commit → B) (hrestore : call = .restore → C) :
    (s.goto (.running rest (f.after call))).Driving B C rest (f.after call) := by
  refine hd.next rfl rfl rfl nofun nofun (fun hf => ?_) (fun hf => ?_)
    (fun h => hcommit (by cases h; rfl)) fun h => hrestore (by cases h; rfl)
  · cases call with
    | reserve => cases hf
    | _ => exact ⟨hf, nofun⟩
  · cases call with
    | commit => exact hcommit rfl
    | _ => exact hd.flagged hf

theorem checkpoint_place (hr : Scripted (.checkpoint step :: rest)) :
    .checkpoint .stop ∉ rest ∧ (step = .stop ∨ step = .put → .checkpoint .mark ∈ rest) := by
  have hplace := hr.instr (P := fun i rest => (i ∈ checkpointSteps → .checkpoint .stop ∉ rest) ∧
    (i = .checkpoint .stop ∨ i = .checkpoint .put → .checkpoint .mark ∈ rest))
    (by decide)
  refine ⟨hplace.1 (by cases step <;> decide), fun hstep => hplace.2 ?_⟩
  rcases hstep with rfl | rfl
  · exact .inl rfl
  · exact .inr rfl

theorem Driving.freeze (hd : s.Driving B C (.checkpoint .stop :: rest) f) (control : Control) :
    Driving B C { s with process := .stopped, froze := true, control } rest f := by
  obtain ⟨hstop, hmark⟩ := checkpoint_place hd.script
  exact
    { script := hd.script.tail
      frozen := fun _ => nofun
      unfrozen := fun hm => absurd hm hstop
      reserved := fun hf => by simpa using hd.reserved hf
      flagged := hd.flagged
      committed := fun hm => hd.committed (by simp [hm])
      restored := fun hm => hd.restored (by simp [hm])
      asked := fun hC hm => hd.asked hC (mem_of_mem_tail hm)
      marked := fun hm => absurd (hmark (.inl rfl)) hm }

theorem Driving.record {status : WorkloadStatus} (hd : s.Driving B C (.checkpoint step :: rest) f)
    (control : Control) (hrec : step.records = some status) :
    Driving B C { s with status, control } rest f := by
  obtain ⟨-, hmark⟩ := checkpoint_place hd.script
  exact
    { script := hd.script.tail
      frozen := hd.frozen
      unfrozen := fun hm => hd.unfrozen (by simp [hm])
      reserved := fun hf => by simpa using hd.reserved hf
      flagged := hd.flagged
      committed := fun hm => hd.committed (by simp [hm])
      restored := fun hm => hd.restored (by simp [hm])
      asked := fun hC hm => hd.asked hC (mem_of_mem_tail hm)
      marked := fun hm _ _ => by
        cases step with
        | put => exact absurd (hmark (.inr rfl)) hm
        | mark =>
          cases hrec
          rfl
        | stop | dump => cases hrec }

theorem Driving.paused (hd : s.Driving B C (.checkpointPaused :: rest) f) (control : Control) :
    Driving B C { s with status := .checkpointed, control } rest f where
  script := hd.script.tail
  frozen := hd.frozen
  unfrozen hm := hd.unfrozen (by simp [hm])
  reserved hf := by simpa using hd.reserved hf
  flagged := hd.flagged
  committed hm := hd.committed (by simp [hm])
  restored hm := hd.restored (by simp [hm])
  asked hC hm := hd.asked hC (mem_of_mem_tail hm)
  marked _ _ _ := rfl

theorem Driving.exit (hd : s.Driving B C rest f) (recorded : Bool) (status : WorkloadStatus) :
    Driving B C { s with process := .dead, recorded, status } rest f :=
  { hd with frozen := fun _ => nofun, marked := fun _ _ => nofun }

structure Kept (A C : Prop) (s : Source) : Prop where
  preserved : s.sourcePreserved = false → 0 < s.stopCalls
  resumed : s.froze → s.process = .running → A
  marked : C → s.process = .stopped → s.status = .checkpointed

theorem Custody.kept (hs : s.Custody A B C) : s.Kept A C := ⟨hs.preserved, hs.resumed, hs.marked⟩

theorem Kept.handle (hk : s.Kept A C) (hreserved : f.reserved = false → A) (hsafe : h.safe → A)
    (hcommitted : f.committed → B) (hpoint : point = .thawed → s.process ≠ .stopped) :
    (s.handle point f h).Custody A B C :=
  ⟨hk.preserved, hk.resumed, hk.marked, hreserved, hsafe, hcommitted, hpoint⟩

theorem Kept.note {preserved : Bool} (hk : s.Kept A C)
    (hp : preserved = s.sourcePreserved ∨ preserved = true) (stage : Stage) :
    Kept A C { s with stage, sourcePreserved := preserved } where
  preserved := by
    rcases hp with rfl | rfl
    · exact hk.preserved
    · nofun
  resumed := hk.resumed
  marked := hk.marked

section

variable (hk : s.Kept A C) (hreserved : f.reserved = false → A) (hsafe : h.safe → A)
  (hcommitted : f.committed → B)

include hk hreserved hsafe hcommitted

theorem Kept.unconfirmed : (s.unconfirmed f h).Custody A B C := by
  unfold Source.unconfirmed
  split_ifs <;> exact hk.handle hreserved hsafe hcommitted nofun

theorem Kept.beginRollback : (s.beginRollback f h).Custody A B C := by
  unfold Source.beginRollback
  split_ifs with hr
  · exact hk.handle hreserved (fun _ => hreserved hr) hcommitted nofun
  · exact hk.unconfirmed hreserved hsafe hcommitted
  · exact hk.handle hreserved hsafe hcommitted nofun

end

theorem Custody.thaw (hs : s.Custody A B C) (hc : s.control = .handling .thaw f h) :
    (s.thaw f h).Custody A B C := by
  obtain ⟨hreserved, hsafe, hcommitted, -⟩ := hs.handling hc
  unfold Source.thaw
  split_ifs with hthaw
  · exact hs.kept.handle hreserved hsafe hcommitted nofun
  · exact hs.kept.handle hreserved hsafe hcommitted nofun
  · exact hs.kept.handle hreserved hsafe hcommitted nofun
  · exact Kept.handle ⟨hs.preserved, fun _ _ => hsafe hthaw.2, fun _ => nofun⟩ hreserved hsafe
      hcommitted fun _ => nofun
  · exact hs.kept.handle hreserved hsafe hcommitted nofun

theorem Kept.afterUndo (hCA : ¬ C → A) (hk : s.Kept A C) (hC : ¬ C) (hcommitted : f.committed → B) :
    (s.afterUndo f c).Custody A B C := by
  unfold Source.afterUndo
  split
  · exact hk.handle (fun _ => hCA hC) nofun hcommitted nofun
  · exact ⟨hk.preserved, hk.resumed, hk.marked, hC, hcommitted⟩

theorem Kept.recover {client : Bool} (hk : s.Kept A C) : (s.recover client).Custody A B C := by
  have hr : s.reconcile.Kept A C := by
    unfold reconcile
    split_ifs with hd
    · refine ⟨hk.preserved, hk.resumed, fun _ hp => ?_⟩
      simp [hd] at hp
    · exact hk
  unfold Source.recover
  split_ifs
  · exact ⟨hr.preserved, hr.resumed, hr.marked, trivial⟩
  · exact ⟨hr.preserved, hr.resumed, hr.marked, rfl, rfl⟩
  · exact hr.handle nofun nofun nofun nofun

/-- A replaced workload is marked, so `runtime.Stop` does not resume it. -/
theorem Custody.stopFails {process : Process} {control : Control} (hBC : B → C)
    (hs : s.Custody A B C) (hc : s.control = .stopping site left)
    (hp : process = s.process ∨ process = .dead ∨
      process = .running ∧ s.alive ∧ s.status ≠ .checkpointed)
    (hn : control = afterStop site false ∨ control = .stopping site (left - 1)) :
    Custody A B C { s with stopCalls := s.stopCalls + 1, process, control } := by
  have hB := hs.stopping hc
  refine ⟨fun _ => Nat.succ_pos _, fun hf hr => ?_, fun hC hst => ?_, ?_⟩
  · rcases hp with rfl | rfl | ⟨-, ha, hstatus⟩
    · exact hs.resumed hf hr
    · cases hr
    · cases hproc : s.process with
      | running => exact hs.resumed hf hproc
      | stopped => exact absurd (hs.marked (hBC hB) hproc) hstatus
      | dead => simp [alive, hproc] at ha
  · rcases hp with rfl | rfl | ⟨rfl, -⟩
    · exact hs.marked hC hst
    · cases hst
    · cases hst
  · rcases hn with rfl | rfl
    · cases site <;> exact ⟨hB, Nat.succ_pos _⟩
    · exact hB

theorem Custody.exit (hs : s.Custody A B C) (recorded : Bool) (status : WorkloadStatus) :
    Custody A B C { s with process := .dead, recorded, status } := by
  refine ⟨hs.preserved, fun _ => nofun, fun _ => nofun, ?_⟩
  have hplacing := hs.placing
  unfold Placing at hplacing ⊢
  split
  · exact (hs.driving ‹_›).exit _ _
  all_goals simp_all

theorem Custody.move (hCA : ¬ C → A) (hBC : B → C) (hs : s.Custody A B C) (ht : s.Told A B C e)
    (hm : s.Move e t) : t.Custody A B C := by
  cases hm with
  | transition hc | read hc =>
    exact Driving.toCustody rfl ((hs.driving hc).own rfl rfl rfl (by simp) rfl rfl) hs.preserved
      hs.marked
  | pass hc hi =>
    exact Driving.toCustody rfl ((hs.driving hc).own rfl rfl rfl (.inl hi) rfl rfl) hs.preserved
      hs.marked
  | note fact hc hi =>
    exact Driving.toCustody rfl ((hs.driving hc).own rfl rfl rfl (.inr (.inl hi)) rfl rfl)
      hs.preserved hs.marked
  | claim hc hi =>
    exact Driving.toCustody rfl ((hs.driving hc).own rfl rfl rfl (.inr (.inr (.inl hi))) rfl rfl)
      hs.preserved hs.marked
  | freeze hc =>
    have hd := hs.driving hc
    exact (hd.freeze _).toCustody rfl hs.preserved fun hC => absurd hC (hd.unasked (.inl ⟨_, rfl⟩))
  | record hc hrec =>
    have hd := hs.driving hc
    exact (hd.record _ hrec).toCustody rfl hs.preserved
      fun hC => absurd hC (hd.unasked (.inl ⟨_, rfl⟩))
  | paused hc => exact ((hs.driving hc).paused _).toCustody rfl hs.preserved fun _ _ => rfl
  | replied hc hr =>
    simp only [Told, hc] at ht
    obtain ⟨hcommit, hrestore⟩ := ht hr
    exact ((hs.driving hc).replied hcommit hrestore).toCustody rfl hs.preserved hs.marked
  | fails hc => exact hs.fails hCA hc
  | undo hc =>
    have hd := hs.driving hc
    exact ⟨hs.preserved, hs.resumed, hs.marked, hd.unasked (.inl ⟨_, rfl⟩), hd.flagged⟩
  | cleanup hc =>
    have hd := hs.driving hc
    have hcommit := hd.script.instr (P := fun i rest => i = .cleanup → .call .commit ∉ rest)
      (by decide) rfl
    exact ⟨hs.preserved, hs.resumed, hs.marked, hd.committed (by simpa using hcommit)⟩
  | resume hc =>
    have hplacing := hs.undoing (.inl hc)
    exact ⟨hs.preserved, fun _ _ => hCA hplacing.1, fun _ => nofun, hplacing⟩
  | unresumed hc =>
    obtain ⟨hC, hcommitted⟩ := hs.undoing (.inl hc)
    exact hs.kept.afterUndo hCA hC hcommitted
  | undone hc =>
    obtain ⟨hC, hcommitted⟩ := hs.undoing (.inr (.inl hc))
    exact Kept.afterUndo hCA ⟨hs.preserved, hs.resumed, fun h => absurd h hC⟩ hC hcommitted
  | noted fact hc =>
    obtain ⟨hC, hcommitted⟩ := hs.undoing (.inr (.inr hc))
    exact Kept.handle ⟨hs.preserved, hs.resumed, hs.marked⟩ (fun _ => hCA hC) nofun hcommitted nofun
  | settleCommitted hc hf hp =>
    have hk := hs.kept.note hp s.stage
    exact ⟨hk.preserved, hk.resumed, hk.marked, (hs.handling hc).2.2.1 hf⟩
  | mark hc hp | preserve hc hp =>
    obtain ⟨hreserved, hsafe, hcommitted, -⟩ := hs.handling hc
    exact (hs.kept.note hp s.stage).handle hreserved hsafe hcommitted nofun
  | rollBack hc _ _ hp | preFail hc _ _ hp =>
    obtain ⟨hreserved, hsafe, hcommitted, -⟩ := hs.handling hc
    exact (hs.kept.note hp _).beginRollback hreserved hsafe hcommitted
  | remark hc | retry hc =>
    obtain ⟨hreserved, hsafe, hcommitted, -⟩ := hs.handling hc
    exact hs.kept.handle hreserved hsafe hcommitted nofun
  | confirmed hc hr =>
    obtain ⟨hreserved, -, hcommitted, -⟩ := hs.handling hc
    simp only [Told, hc] at ht
    exact hs.kept.handle hreserved (fun _ => ht hr) hcommitted nofun
  | unconfirmed hc =>
    obtain ⟨hreserved, hsafe, hcommitted, -⟩ := hs.handling hc
    exact hs.kept.unconfirmed hreserved hsafe hcommitted
  | probed hc =>
    obtain ⟨hreserved, -, hcommitted, -⟩ := hs.handling hc
    simp only [Told, hc] at ht
    exact hs.kept.handle hreserved ht hcommitted nofun
  | thaw hc => exact hs.thaw hc
  | thawed hc =>
    obtain ⟨hreserved, hsafe, hcommitted, hthawed⟩ := hs.handling hc
    exact Kept.handle ⟨hs.preserved, hs.resumed, fun _ hp => absurd hp (hthawed rfl)⟩ hreserved
      hsafe hcommitted nofun
  | ended | settle | unsettled | completed | unforced | crash =>
    exact ⟨hs.preserved, hs.resumed, hs.marked, trivial⟩
  | committed hc =>
    simp only [Told, hc] at ht
    exact ⟨hs.preserved, hs.resumed, hs.marked, ht.2 trivial⟩
  | nothing hc hr =>
    simp only [Told, hc] at ht
    exact hs.kept.handle (fun _ => ht.1 hr) nofun
      (fun hf => by simp [(hs.recovering hc).2] at hf) nofun
  | present hc =>
    exact hs.kept.handle (fun hf => by simp [(hs.recovering hc).1] at hf) nofun
      (fun hf => by simp [(hs.recovering hc).2] at hf) nofun
  | @stopped site left hc =>
    refine ⟨fun _ => Nat.succ_pos _, fun _ => nofun, fun _ => nofun, ?_⟩
    cases site <;> exact ⟨hs.stopping hc, Nat.succ_pos _⟩
  | stopFails hc hp hn => exact hs.stopFails hBC hc hp hn
  | preserved hc =>
    have hfinished := hs.finished (.inl hc)
    exact ⟨fun _ => hfinished.2, hs.resumed, hs.marked, hfinished⟩
  | force hc =>
    exact ⟨hs.preserved, hs.resumed, hs.marked, hs.finished (hc.imp_right .inl)⟩
  | forced hc =>
    exact ⟨fun _ => (hs.finished (.inr (.inr hc))).2, hs.resumed, hs.marked, trivial⟩
  | exit => exact hs.exit _ _
  | recover => exact hs.kept.recover

theorem Custody.ofAdmitted (whole : List Instr) (hwhole : whole ∈ scripts)
    (hc : s.control = .running whole {}) (hpreserved : s.sourcePreserved = true)
    (hfroze : s.froze = false) (hC : ¬ C) : s.Custody A B C := by
  have hcalls := (by decide : ∀ whole ∈ scripts, .call .reserve ∈ whole ∧
    .call .commit ∈ whole ∧ .call .restore ∈ whole ∧
      (.checkpoint .mark ∈ whole ∨ .checkpointPaused ∈ whole)) whole hwhole
  obtain ⟨hreserve, hcommit, hrestore, hmark⟩ := hcalls
  refine Driving.toCustody hc ?_ (by simp [hpreserved]) fun h => absurd h hC
  exact
    { script := ⟨whole, hwhole, suffix_refl _⟩
      frozen := by simp [hfroze]
      unfrozen := fun _ => hfroze
      reserved := fun _ => hreserve
      flagged := nofun
      committed := fun hm => absurd hcommit hm
      restored := fun hm => absurd hrestore hm
      asked := fun h => absurd h hC
      marked := fun hm hm' => (hmark.elim hm hm').elim }

end Shiftgate.Migration.Source
