import Shiftgate.Failover.Ownership

/-! Exclusive failover. The row protects a supervisor only while it is leased: marking it fenced
drops the lease before the restore begins, and nothing renews one that runs out during the fence. -/

namespace Shiftgate.Failover

open Library Option

variable {c : Config} {s t : System} {a : Action} {m : String} {j k : Nat}

def Phase.carries : Phase → Option Grant
  | .idle | .acquiring _ => none
  | .fencing grant | .marking grant _ | .marked grant | .restoring grant => some grant

def Call.acquirer : Call → Option String
  | .acquire m => some m
  | .fence _ _ => none

namespace System

inductive Change (c : Config) (s : System) : Action → System → Prop
  | tick {seconds : Nat} : Change c s (.tick seconds) { s with now := s.now + seconds }
  | asks {m : String} (hidle : (s.standby m).phase = .idle) :
      Change c s (.consider m) (s.ask m (.acquire m) .acquiring)
  | acquired {k : Nat} {token m : String} {row : OwnershipRecord}
      (hrequest : s.requests.pending k = some (.acquire m))
      (hrow : acquireOwnership c.hash (some c.organizationID) s.row c.organizationID c.workloadID m
        token leaseSeconds s.now = .ok row) :
      Change c s (.serve k token)
        (({ s with row := some row } : System).setReply k (.acquired ⟨row.epoch, token⟩))
  | fenced {k : Nat} {token m : String} {grant : Grant} {row : OwnershipRecord}
      (hrow : markOwnershipFenced c.hash s.row c.organizationID m grant.token grant.epoch =
        .ok row) :
      Change c s (.serve k token) (({ s with row := some row } : System).setReply k .fenced)
  | refused {a : Action} {k : Nat} : Change c s a (s.setReply k .refused)
  | ends {a : Action} {m : String} {standby : Standby} (hidle : standby.phase = .idle)
      (hrestored : standby.restored = true →
        (s.standby m).restored = true ∨ ∃ grant, (s.standby m).phase = .restoring grant) :
      Change c s a (s.setStandby m standby)
  | moves {a : Action} {m : String} {phase : Phase} {grant : Grant}
      (hgrant : s.grant m = some grant) (hphase : phase.carries = some grant) :
      Change c s a (s.setPhase m phase)
  | marks {m : String} {grant : Grant} (hphase : (s.standby m).phase = .fencing grant) :
      Change c s (.fence m true) (s.ask m (.fence m grant) (.marking grant))

theorem change_setPhase_idle (c : Config) (s : System) (a : Action) (m : String) :
    Change c s a (s.setPhase m .idle) :=
  .ends rfl .inl

theorem answered_change (h : s.answered m (s.standby m).phase = some t) :
    Change c s (.answer m) t := by
  cases hphase : (s.standby m).phase with
  | idle | fencing | marked | restoring =>
    rw [hphase] at h
    cases h
  | acquiring k =>
    rw [hphase] at h
    simp only [answered] at h
    split at h
    · rename_i grant hreply
      split_ifs at h
      · cases h
        exact change_setPhase_idle c s _ m
      · cases h
        have hgrant : s.grant m = some grant := by simp [System.grant, hphase, hreply]
        exact .moves hgrant rfl
    · cases h
      exact change_setPhase_idle c s _ m
    · cases h
  | marking grant k =>
    rw [hphase] at h
    simp only [answered] at h
    split at h
    · cases h
      have hgrant : s.grant m = some grant := by simp [System.grant, hphase]
      exact .moves hgrant rfl
    · cases h
      exact change_setPhase_idle c s _ m
    · cases h

theorem step_change (h : s.step c a = some t) : Change c s a t := by
  cases a with
  | tick seconds =>
    cases h
    exact .tick
  | consider m =>
    obtain ⟨⟨-, hidle, -⟩, ht⟩ := ite_none_right_eq_some.mp h
    cases ht
    exact .asks hidle
  | serve k token =>
    obtain ⟨call, hrequest, rfl⟩ := map_eq_some_iff.mp h
    cases call with
    | acquire m =>
      simp only [serve]
      split
      · rename_i row hrow
        exact .acquired hrequest hrow
      · exact .refused
    | fence m grant =>
      simp only [serve]
      split
      · rename_i row hrow
        exact .fenced hrow
      · exact .refused
  | refuse k =>
    obtain ⟨call, -, rfl⟩ := map_eq_some_iff.mp h
    exact .refused
  | answer m => exact answered_change h
  | giveUp m =>
    simp only [step] at h
    split at h
    · cases h
      exact change_setPhase_idle c s _ m
    · cases h
      exact change_setPhase_idle c s _ m
    · cases h
  | fence m confirmed =>
    simp only [step] at h
    split at h
    · rename_i grant hphase
      cases confirmed with
      | true =>
        cases h
        exact .marks hphase
      | false =>
        cases h
        exact change_setPhase_idle c s _ m
    · cases h
  | begin m claim =>
    simp only [step] at h
    split at h
    · rename_i grant hphase
      cases claim with
      | refused | terminal =>
        cases h
        exact change_setPhase_idle c s _ m
      | runsHere =>
        cases h
        exact .ends rfl .inl
      | restores =>
        cases h
        have hgrant : s.grant m = some grant := by simp [System.grant, hphase]
        exact .moves hgrant rfl
    · cases h
  | finish m ok persisted =>
    simp only [step] at h
    split at h
    · rename_i grant hphase
      cases h
      cases ok with
      | true => exact .ends rfl fun _ => .inr ⟨grant, hphase⟩
      | false => exact change_setPhase_idle c s _ m
    · cases h
  | crash m =>
    cases h
    exact change_setPhase_idle c s _ m

variable {row : Option OwnershipRecord} {new : OwnershipRecord} {token : String} {reply : Reply}
  {grant : Grant}

theorem acquireOwnership_ok {workloadOrganization : Option String}
    {organizationID workloadID : String} {lease now : Nat}
    (h : acquireOwnership c.hash workloadOrganization row organizationID workloadID m token lease
      now = .ok new) :
    new.ownerMachineID = m ∧ new.epoch = (row.map (·.epoch)).getD 0 + 1 ∧
      new.tokenHash = c.hash token ∧ ∀ old ∈ row, old.excludes m now = false := by
  unfold acquireOwnership at h
  split_ifs at h
  cases workloadOrganization with
  | none => cases h
  | some organization =>
    simp only at h
    split_ifs at h with _ _ hfree
    cases h
    cases row with
    | none => exact ⟨rfl, rfl, rfl, by simp⟩
    | some old => exact ⟨rfl, rfl, rfl, by simpa using hfree⟩

theorem markOwnershipFenced_ok {organizationID : String} {epoch : Nat}
    (h : markOwnershipFenced c.hash row organizationID m token epoch = .ok new) :
    ∃ old, row = some old ∧ new = { old with state := .fenced, leaseExpiresAt := none } := by
  cases row with
  | none => cases h
  | some old =>
    simp only [markOwnershipFenced] at h
    split_ifs at h
    cases h
    exact ⟨old, rfl, rfl⟩

structure Exclusive (c : Config) (s : System) : Prop where
  current : ∀ m grant, s.grant m = some grant → s.Current c m grant
  restored : ∀ m, (s.standby m).restored = true → ∃ row, s.row = some row ∧ row.ownerMachineID = m
  own : ∀ m k, (s.standby m).phase = .acquiring k → s.requests.Asks k (.acquire m)

/-- The row is leased to another machine, or its owner is done without a restored workload. -/
def AcquiresFree (s : System) : Action → Prop
  | .serve k _ => ∀ call ∈ s.requests.pending k, ∀ m ∈ call.acquirer, ∀ row ∈ s.row,
      row.excludes m s.now = true ∨
        s.grant row.ownerMachineID = none ∧ (s.standby row.ownerMachineID).restored = false
  | _ => True

instance (s : System) : ∀ a, Decidable (AcquiresFree s a)
  | .serve .. => inferInstanceAs (Decidable (∀ call ∈ _, ∀ m ∈ _, ∀ row ∈ _, _))
  | .tick .. | .consider .. | .refuse .. | .answer .. | .giveUp .. | .fence .. | .begin ..
  | .finish .. | .crash .. => isTrue trivial

theorem grant_setStandby (s : System) (m other : String) (standby : Standby) :
    (s.setStandby m standby).grant other =
      if other = m then ({ s with standby := fun _ => standby } : System).grant other
      else s.grant other := by
  unfold grant setStandby
  by_cases h : other = m <;> simp [h]

theorem grant_setReply (h : (s.setReply k reply).grant m = some grant) :
    s.grant m = some grant ∨ (s.standby m).phase = .acquiring k ∧ reply = .acquired grant := by
  cases hphase : (s.standby m).phase with
  | acquiring j =>
    simp only [System.grant, setReply, hphase] at h ⊢
    split at h
    · rename_i found hreply
      cases h
      rcases Requests.reply_of_answer hreply with hold | ⟨rfl, rfl⟩
      · simp [hold]
      · exact .inr ⟨rfl, rfl⟩
    · cases h
  | idle | fencing | marking | marked | restoring =>
    simp only [System.grant, setReply, hphase] at h ⊢
    exact .inl h

theorem Exclusive.setReply (h : s.Exclusive c) (hreply : ∀ grant, reply ≠ .acquired grant) :
    (s.setReply k reply).Exclusive c where
  current := by
    intro m grant hg
    rcases grant_setReply hg with hg | ⟨-, hr⟩
    · exact h.current m grant hg
    · exact absurd hr (hreply grant)
  restored := h.restored
  own := fun m j hphase => (h.own m j hphase).answer k reply

theorem grant_of_restoring (h : (s.standby m).phase = .restoring grant) :
    s.grant m = some grant := by
  simp [System.grant, h]

section

variable (h : s.Exclusive c)

include h

theorem Exclusive.setStandby {standby : Standby}
    (hgrant : ∀ grant, standby.phase.carries = some grant → s.grant m = some grant)
    (hphase : ∀ k, standby.phase ≠ .acquiring k) (hrestored : standby.restored = true →
      (s.standby m).restored = true ∨ ∃ grant, s.grant m = some grant) :
    (s.setStandby m standby).Exclusive c where
  current := by
    intro other grant hg
    rw [grant_setStandby] at hg
    split_ifs at hg with hother
    · subst hother
      refine h.current other grant (hgrant grant ?_)
      unfold System.grant at hg
      cases hp : standby.phase with
      | acquiring k => exact absurd hp (hphase k)
      | idle | fencing | marking | marked | restoring =>
        simp only [hp] at hg
        exact hg
    · exact h.current other grant hg
  restored := by
    intro other hr
    simp only [System.setStandby] at hr
    split_ifs at hr with hother
    · subst hother
      rcases hrestored hr with hold | ⟨grant, hg⟩
      · exact h.restored other hold
      · obtain ⟨row, hrow, howner, -⟩ := h.current other grant hg
        exact ⟨row, hrow, howner⟩
    · exact h.restored other hr
  own := by
    intro other k hp
    simp only [System.setStandby] at hp
    split_ifs at hp with hother
    · exact absurd hp (hphase k)
    · exact h.own other k hp

theorem Exclusive.request (call : Call) :
    ({ s with requests := s.requests.send call } : System).Exclusive c where
  current := by
    intro m grant hg
    refine h.current m grant ?_
    unfold System.grant at *
    cases hp : (s.standby m).phase with
    | acquiring k =>
      simp only [hp, Requests.reply_send (h.own m k hp).lt_length] at hg
      exact hg
    | idle | fencing | marking | marked | restoring =>
      simp only [hp] at hg
      exact hg
  restored := h.restored
  own := fun m k hp => (h.own m k hp).send call

theorem Exclusive.asks : (s.ask m (.acquire m) .acquiring).Exclusive c := by
  have hreq := h.request (.acquire m)
  -- The new request has no reply, so the supervisor that waits for it has no grant.
  refine ⟨fun other grant hg => ?_, fun other hr => ?_, fun other k hp => ?_⟩
  · rw [ask, setPhase, grant_setStandby] at hg
    split_ifs at hg with hother
    · simp [System.grant] at hg
    · exact hreq.current other grant hg
  · simp only [ask, setPhase, System.setStandby] at hr
    split_ifs at hr with hother
    · subst hother
      exact h.restored other hr
    · exact h.restored other hr
  · simp only [ask, setPhase, System.setStandby] at hp ⊢
    split_ifs at hp with hother
    · subst hother
      cases hp
      exact Requests.asks_send _ _
    · exact hreq.own other k hp

theorem Exclusive.acquired {row : OwnershipRecord}
    (hrequest : s.requests.pending k = some (.acquire m))
    (hfree : ∀ old ∈ s.row, s.grant old.ownerMachineID = none ∧
      (s.standby old.ownerMachineID).restored = false) (howner : row.ownerMachineID = m)
    (htoken : row.tokenHash = c.hash token) :
    (({ s with row := some row } : System).setReply k (.acquired ⟨row.epoch, token⟩)).Exclusive
      c where
  current := by
    intro other grant hg
    rcases grant_setReply hg with hg | ⟨hp, hr⟩
    · obtain ⟨old, hold, hname, -⟩ := h.current other grant hg
      have hnone := (hfree old hold).1
      rw [hname] at hnone
      exact absurd (hnone.symm.trans hg) (by simp)
    · cases (h.own other k hp).unique (.of_pending hrequest)
      cases hr
      exact ⟨row, rfl, howner, rfl, htoken⟩
  restored := by
    intro other hr
    obtain ⟨old, hold, hname⟩ := h.restored other hr
    have hnot := (hfree old hold).2
    rw [hname] at hnot
    exact absurd (hnot.symm.trans hr) (by simp)
  own := fun other j hp => (h.own other j hp).answer k _

theorem Exclusive.step (hfree : AcquiresFree s a) (hstep : s.step c a = some t) :
    t.Exclusive c := by
  cases step_change hstep with
  | tick => exact ⟨h.current, h.restored, h.own⟩
  | asks hidle => exact h.asks
  | acquired hrequest hrow =>
    obtain ⟨howner, -, htoken, hopen⟩ := acquireOwnership_ok hrow
    refine h.acquired hrequest (fun old hold => ?_) howner htoken
    exact (hfree _ hrequest _ rfl old hold).resolve_left (by rw [hopen old hold]; simp)
  | @fenced k token m grant row hrow =>
    obtain ⟨old, hold, rfl⟩ := markOwnershipFenced_ok hrow
    -- Marking changes neither the owner nor the epoch nor the token.
    refine Exclusive.setReply ⟨fun other g hg => ?_, fun other hr => ?_, h.own⟩ (by simp)
    · obtain ⟨row, hrow, hname⟩ := h.current other g hg
      cases hold.symm.trans hrow
      exact ⟨_, rfl, hname⟩
    · obtain ⟨row, hrow, hname⟩ := h.restored other hr
      cases hold.symm.trans hrow
      exact ⟨_, rfl, hname⟩
  | refused => exact h.setReply (by simp)
  | ends hidle hrestored =>
    refine h.setStandby (by simp [hidle, Phase.carries]) (by simp [hidle]) fun hr => ?_
    rcases hrestored hr with hold | ⟨grant, hp⟩
    · exact .inl hold
    · exact .inr ⟨grant, grant_of_restoring hp⟩
  | moves hgrant hphase =>
    refine h.setStandby (fun grant hg => ?_) (fun k hp => ?_) .inl
    · rw [hphase] at hg
      cases hg
      exact hgrant
    · cases hp
      cases hphase
  | @marks m grant hphase =>
    refine (h.request (.fence m grant)).setStandby (fun g hg => ?_) (by simp) .inl
    cases hg
    simp [System.grant, hphase]

end

theorem exclusive_initial : Exclusive c initial :=
  ⟨nofun, nofun, nofun⟩

def Acquires (s t : System) (a : Action) : Prop :=
  ∃ k token grant, a = .serve k token ∧ s.requests.reply k = none ∧
    t.requests.reply k = some (.acquired grant)

theorem Change.acquires (h : Change c s a t) (ha : Acquires s t a) :
    ∃ k row m token, t = ({ s with row := some row } : System).setReply k
        (.acquired ⟨row.epoch, token⟩) ∧
      acquireOwnership c.hash (some c.organizationID) s.row c.organizationID c.workloadID m token
        leaseSeconds s.now = .ok row := by
  obtain ⟨k, token, grant, rfl, hnone, hsome⟩ := ha
  cases h with
  | acquired hrequest hrow => exact ⟨_, _, _, _, rfl, hrow⟩
  | fenced hrow | refused =>
    rcases Requests.reply_of_answer hsome with hold | ⟨-, h⟩
    · exact absurd (hnone.symm.trans hold) (by simp)
    · cases h
  | ends | moves => exact absurd (hnone.symm.trans hsome) (by simp)

theorem Change.epoch_le (h : Change c s a t) : s.epoch ≤ t.epoch := by
  cases h with
  | acquired hrequest hrow =>
    obtain ⟨-, hepoch, -⟩ := acquireOwnership_ok hrow
    show s.epoch ≤ _
    simp only [epoch, setReply, map_some, getD_some, hepoch]
    exact Nat.le_succ _
  | fenced hrow =>
    obtain ⟨old, hold, rfl⟩ := markOwnershipFenced_ok hrow
    simp [epoch, setReply, hold]
  | tick | asks | refused | ends | moves | marks => exact Nat.le_refl _

theorem epoch_lt_of_acquires (h : s.step c a = some t) (ha : Acquires s t a) :
    s.epoch < t.epoch := by
  obtain ⟨k, row, m, token, rfl, hrow⟩ := (step_change h).acquires ha
  obtain ⟨-, hepoch, -⟩ := acquireOwnership_ok hrow
  simp only [epoch, setReply, map_some, getD_some, hepoch]
  exact Nat.lt_succ_self _

def Holds (s : System) (m : String) : Prop :=
  (s.grant m).isSome ∨ (s.standby m).restored = true

theorem Exclusive.owner (h : s.Exclusive c) (hm : s.Holds m) :
    ∃ row, s.row = some row ∧ row.ownerMachineID = m := by
  rcases hm with hg | hr
  · obtain ⟨grant, hg⟩ := isSome_iff_exists.mp hg
    obtain ⟨row, hrow, howner, -⟩ := h.current m grant hg
    exact ⟨row, hrow, howner⟩
  · exact h.restored m hr

/-- In every run whose acquires meet the condition: the epoch never falls and rises with every
acquire, no two supervisors hold the workload at once or one after the other's restore, and a
supervisor that restores, or is about to, has the row's epoch and token. -/
theorem failover_exclusive {as : List Action}
    (hfree : Meets (step c) AcquiresFree initial as) (hrun : exec (step c) initial as = some s) :
    (∀ a t, s.step c a = some t → s.epoch ≤ t.epoch ∧ (Acquires s t a → s.epoch < t.epoch)) ∧
      (∀ m m', s.Holds m → s.Holds m' → m = m') ∧
      ∀ m grant, (s.standby m).phase = .marked grant ∨ (s.standby m).phase = .restoring grant →
        s.Current c m grant := by
  have h : s.Exclusive c := exec_invariant (Exclusive c) (fun _ _ _ h hf ht => h.step hf ht)
    exclusive_initial hfree hrun
  refine ⟨fun a t ht => ⟨(step_change ht).epoch_le, epoch_lt_of_acquires ht⟩, ?_, ?_⟩
  · intro m m' hm hm'
    obtain ⟨row, hrow, rfl⟩ := h.owner hm
    obtain ⟨row', hrow', rfl⟩ := h.owner hm'
    cases hrow.symm.trans hrow'
    rfl
  · rintro m grant (hp | hp)
    · exact h.current m grant (by simp [System.grant, hp])
    · exact h.current m grant (by simp [System.grant, hp])

def plainConfig : Config where
  hash := id
  organizationID := "org"
  workloadID := "w"

def takes (m : String) (k : Nat) (token : String) : List Action :=
  [.consider m, .serve k token, .answer m, .fence m true, .serve (k + 1) "", .answer m]

def orderedTakeover : List Action :=
  takes "a" 0 "t0" ++ [.begin "a" .restores, .tick 300, .finish "a" false false] ++
    takes "b" 2 "t1" ++ [.begin "b" .restores, .finish "b" true true]

theorem orderedTakeover_exclusive :
    ∃ s, exec (step plainConfig) initial orderedTakeover = some s ∧
      s.epoch = 2 ∧ s.Holds "b" ∧ ∀ m m', s.Holds m → s.Holds m' → m = m' := by
  obtain ⟨s, hs, hepoch, hrestored⟩ : ∃ s, exec (step plainConfig) initial orderedTakeover =
      some s ∧ s.epoch = 2 ∧ (s.standby "b").restored = true := by decide
  exact ⟨s, hs, hepoch, .inr hrestored, (failover_exclusive (by decide) hs).2.1⟩

def doubleRestore : List Action :=
  takes "a" 0 "t0" ++ takes "b" 2 "t1" ++ [.begin "a" .restores, .begin "b" .restores]

/-- Both standbys restore, the first under an epoch no longer the row's. -/
theorem fenced_row_restored_twice :
    ∃ s, exec (step plainConfig) initial doubleRestore = some s ∧
      (s.standby "a").phase = .restoring ⟨1, "t0"⟩ ∧ (s.standby "b").phase = .restoring ⟨2, "t1"⟩ ∧
      s.epoch = 2 := by
  decide

/-- Once the row is acquired again, nobody ever fences with an earlier grant. -/
theorem stale_grant_never_fences {grant : Grant} {later : List Action}
    (hstale : grant.epoch < s.epoch)
    (hrun : exec (step c) s later = some t) (row : OwnershipRecord) :
    markOwnershipFenced c.hash t.row c.organizationID m grant.token grant.epoch ≠ .ok row := by
  have hlt := Reachable.invariant (grant.epoch < ·.epoch)
    (fun _ _ _ hlt hstep => hlt.trans_le (step_change hstep).epoch_le) hstale ⟨later, hrun⟩
  cases hold : t.row with
  | none => simp [markOwnershipFenced]
  | some old =>
    simp only [epoch, hold, map_some, getD_some] at hlt
    simp [markOwnershipFenced, hlt.ne']

theorem doubleRestore_first_stale : ∃ s, exec (step plainConfig) initial doubleRestore = some s ∧
    ∀ row, markOwnershipFenced plainConfig.hash s.row plainConfig.organizationID "a" "t0" 1 ≠
      .ok row := by
  obtain ⟨s, hs, hepoch⟩ : ∃ s, exec (step plainConfig) initial doubleRestore = some s ∧
    s.epoch = 2 := by decide
  have hstale : (⟨1, "t0"⟩ : Grant).epoch < s.epoch := by simp [hepoch]
  exact ⟨s, hs, stale_grant_never_fences hstale (exec_nil s)⟩

end System

end Shiftgate.Failover
