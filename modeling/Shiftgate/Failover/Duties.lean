import Shiftgate.Failover.Replicate

/-! Which standbys hold a duty of this source, and who still knows of them: a standby whose duty is
armed must be named by the ledger or by the policy, or nobody will push to it or withdraw it. -/

namespace Shiftgate.Failover.Replication

open Library List Option Point Requests AList

namespace Ledger

def Names (ledger : Ledger) (workload url : String) : Prop :=
  ∃ entry ∈ ledger.lookup workload, entry.standbyURL = url

instance (ledger : Ledger) (workload url : String) : Decidable (ledger.Names workload url) :=
  inferInstanceAs (Decidable (∃ entry ∈ (_ : Option ReplicationEntry), _ = _))

variable {ledger : Ledger} {entry : ReplicationEntry} {workload url : String}

theorem names_put_self : (ledger.put entry).Names entry.workloadID entry.standbyURL :=
  ⟨entry, lookup_insert ledger, rfl⟩

theorem names_put_ne (h : workload ≠ entry.workloadID) :
    (ledger.put entry).Names workload url ↔ ledger.Names workload url := by
  unfold Names Ledger.put
  rw [lookup_insert_ne h]

theorem names_delete_ne {other : String} (h : workload ≠ other) :
    (ledger.delete other).Names workload url ↔ ledger.Names workload url := by
  unfold Names Ledger.delete
  rw [lookup_erase_ne h]

theorem Names.unique {url' : String} (h : ledger.Names workload url)
    (h' : ledger.Names workload url') : url = url' := by
  obtain ⟨entry, hentry, rfl⟩ := h
  obtain ⟨entry', hentry', rfl⟩ := h'
  rw [mem_unique hentry hentry']

theorem Names.put (h : ledger.Names workload url)
    (hsame : workload = entry.workloadID → entry.standbyURL = url) :
    (ledger.put entry).Names workload url := by
  by_cases hw : workload = entry.workloadID
  · rw [hw, ← hsame hw]
    exact names_put_self
  · exact (names_put_ne hw).mpr h

def Keyed (ledger : Ledger) : Prop :=
  ∀ workload, ∀ entry ∈ ledger.lookup workload, entry.workloadID = workload

theorem Keyed.put (h : ledger.Keyed) (entry : ReplicationEntry) : (ledger.put entry).Keyed := by
  intro workload found hfound
  by_cases hw : workload = entry.workloadID
  · subst hw
    rw [Ledger.put, lookup_insert] at hfound
    cases hfound
    rfl
  · rw [Ledger.put, lookup_insert_ne hw] at hfound
    exact h workload found hfound

theorem Keyed.delete (h : ledger.Keyed) (other : String) : (ledger.delete other).Keyed := by
  intro workload found hfound
  by_cases hw : workload = other
  · subst hw
    rw [Ledger.delete, lookup_erase] at hfound
    cases hfound
  · rw [Ledger.delete, lookup_erase_ne hw] at hfound
    exact h workload found hfound

theorem Keyed.list (h : ledger.Keyed) :
    ((ledger.entries.map (·.2)).map (·.workloadID)).Nodup ∧
      ∀ entry ∈ ledger.entries.map (·.2), ledger.Names entry.workloadID entry.standbyURL := by
  have hmem : ∀ item ∈ ledger.entries, item.2.workloadID = item.1 ∧
      ledger.Names item.1 item.2.standbyURL := by
    intro item hitem
    have hlookup : item.2 ∈ ledger.lookup item.1 := mem_lookup_iff.mpr hitem
    exact ⟨h item.1 item.2 hlookup, item.2, hlookup, rfl⟩
  constructor
  · have hkeys : (ledger.entries.map (·.2)).map (·.workloadID) = ledger.entries.map (·.1) := by
      rw [List.map_map]
      exact map_congr_left fun item hitem => (hmem item hitem).1
    rw [hkeys]
    exact ledger.nodupKeys
  · intro entry hentry
    obtain ⟨item, hitem, rfl⟩ := List.mem_map.mp hentry
    obtain ⟨hkey, hnames⟩ := hmem item hitem
    exact hkey ▸ hnames

end Ledger

open Ledger

def Point.unrecorded : Point → Option Push
  | .holding push _ _ | .confirming push _ _ | .recording push _ => some push
  | .failing push _ => if push.sent then some push else none
  | .idle | .withdrawals _ | .withdrawing _ _ _ | .refused _ _ | .withdrawn _ _ | .pushes _
  | .pushing _ _ => none

def Point.ending : Point → Option Push
  | .failing push _ => some push
  | _ => none

namespace System

variable {machine : String} {s t : System} {a : Action} {url w : String}

def Armed (machine : String) (s : System) (url workload : String) : Prop :=
  s.duties url workload = some ⟨machine, false⟩

instance (machine : String) (s : System) (url workload : String) :
    Decidable (s.Armed machine url workload) :=
  inferInstanceAs (Decidable (_ = _))

def Recorded (s : System) (workload url : String) : Prop :=
  s.ledger.Names workload url ∧ s.stored.Names workload url

instance (s : System) (workload url : String) : Decidable (s.Recorded workload url) :=
  inferInstanceAs (Decidable (_ ∧ _))

/-- A standby serves a hold only while the source waits for it and names the standby, and
acknowledges no withdrawal it has not made. -/
def ServesInTime (machine : String) (s : System) (k : Nat) (lands : Bool) : Call → Prop
  | .hold workload url => lands = true → s.waitsFor = some k ∧
      (s.policyOf workload = some url ∨ s.Recorded workload url)
  | .confirm _ _ => True
  | .withdraw workload url => s.Armed machine url workload → lands = true

/-- While a hold has been sent that the ledger does not tell of, the workload keeps its policy, the
agent does not crash and the push's last write does not fail. -/
def KeepsTrack (machine : String) (s : System) : Action → Prop
  | .serve k (.done lands _) => ∀ call ∈ s.requests.pending k, s.ServesInTime machine k lands call
  | .setFailoverPolicy id policy => ∀ push ∈ s.point.unrecorded, push.workload = id →
      policy = some push.url ∨ s.Recorded push.workload push.url
  | .delete id => ∀ push ∈ s.point.unrecorded, push.workload = id →
      s.Recorded push.workload push.url
  | .crash => ∀ push ∈ s.point.unrecorded, s.stored.Names push.workload push.url
  | .step choice => ∀ push ∈ s.point.ending, push.sent = true →
      choice.write = .ok ∨ s.Recorded push.workload push.url
  | _ => True

instance (machine : String) (s : System) (k : Nat) (lands : Bool) :
    ∀ call, Decidable (s.ServesInTime machine k lands call)
  | .hold _ _ => inferInstanceAs (Decidable (_ = _ → _ ∧ (_ ∨ _)))
  | .confirm _ _ => isTrue trivial
  | .withdraw _ _ => inferInstanceAs (Decidable (Armed _ _ _ _ → _))

instance (machine : String) (s : System) : ∀ a, Decidable (s.KeepsTrack machine a)
  | .serve _ (.done _ _) => inferInstanceAs (Decidable (∀ call ∈ (_ : Option Call),
      ServesInTime _ _ _ _ call))
  | .setFailoverPolicy _ _ => inferInstanceAs (Decidable (∀ push ∈ (_ : Option Push),
      push.workload = _ → _ ∨ _))
  | .delete _ => inferInstanceAs (Decidable (∀ push ∈ (_ : Option Push), push.workload = _ → _))
  | .crash => inferInstanceAs (Decidable (∀ push ∈ (_ : Option Push), Ledger.Names _ _ _))
  | .step _ => inferInstanceAs (Decidable (∀ push ∈ (_ : Option Push), push.sent = true → _ ∨ _))
  | .serve _ .refuse | .tick _ | .create _ | .answer | .giveUp | .compact | .failOver _ _
  | .otherHold _ _ _ | .drop _ _ => isTrue trivial

structure Listed (s : System) (rest : List ReplicationEntry) : Prop where
  distinct : (rest.map (·.workloadID)).Nodup
  named : ∀ entry ∈ rest, s.ledger.Names entry.workloadID entry.standbyURL

structure Aimed (s : System) (push : Push) : Prop where
  workload_eq : push.entry.workloadID = push.workload
  url_eq : push.entry.standbyURL = push.url
  only : ∀ url, s.ledger.Names push.workload url → url = push.url

def PointOk (machine : String) (s : System) : Point → Prop
  | .idle | .pushes _ => True
  | .withdrawals rest => s.Listed rest
  | .withdrawing entry rest k => s.Listed (entry :: rest) ∧
      s.requests.Asks k (.withdraw entry.workloadID entry.standbyURL) ∧
      (s.requests.reply k = some .ok → ¬ s.Armed machine entry.standbyURL entry.workloadID)
  | .refused entry rest => s.Listed (entry :: rest)
  | .withdrawn entry rest => s.Listed (entry :: rest) ∧
      ¬ s.Armed machine entry.standbyURL entry.workloadID
  | .pushing push _ => s.Aimed push
  | .holding push _ k => s.Aimed push ∧ push.sent = true ∧
      s.requests.Asks k (.hold push.workload push.url)
  | .confirming push _ k => s.Aimed push ∧ push.sent = true ∧
      ∃ session, s.requests.Asks k (.confirm push.url session)
  | .recording push _ => s.Aimed push ∧ push.sent = true
  | .failing push _ => s.Aimed push

def UnderWay (s : System) (workload url : String) : Prop :=
  (∃ push ∈ s.point.unrecorded, push.workload = workload ∧ push.url = url) ∧
    s.policyOf workload = some url

structure Tracked (machine : String) (s : System) : Prop where
  armed : ∀ url w, s.Armed machine url w → s.Recorded w url ∨ s.UnderWay w url
  point : s.PointOk machine s.point
  keyed : s.ledger.Keyed
  keyedStored : s.stored.Keyed

theorem Listed.congr {rest : List ReplicationEntry} (h : s.Listed rest)
    (hledger : t.ledger = s.ledger) : t.Listed rest :=
  ⟨h.distinct, fun entry hentry => hledger ▸ h.named entry hentry⟩

theorem Listed.tail {entry : ReplicationEntry} {rest : List ReplicationEntry}
    (h : s.Listed (entry :: rest)) : s.Listed rest :=
  ⟨(nodup_cons.mp h.distinct).2, fun other hother => h.named other (.tail _ hother)⟩

theorem Aimed.congr {push : Push} (h : s.Aimed push) (hledger : t.ledger = s.ledger) :
    t.Aimed push :=
  ⟨h.workload_eq, h.url_eq, hledger ▸ h.only⟩

variable {point : Point} {id : String} {x : Workload} {duty : Option Duty} {k : Nat} {reply : Reply}
  {call : Call} {held : List Nat} {f : Ledger → Ledger} {choice : Choice} {push : Push}
  {entry : ReplicationEntry} {rest : List ReplicationEntry} {url' w' : String}

/-- A point stays as good when requests are only added or answered, no withdrawal is acknowledged
while its duty is armed, and no duty is armed. -/
theorem PointOk.mono (h : s.PointOk machine point) (hledger : t.ledger = s.ledger)
    (hasks : ∀ k call, s.requests.Asks k call → t.requests.Asks k call)
    (hreply : ∀ k w url, s.requests.Asks k (.withdraw w url) → t.requests.reply k = some .ok →
      s.requests.reply k = some .ok ∨ ¬ t.Armed machine url w)
    (harmed : ∀ url w, t.Armed machine url w → s.Armed machine url w) :
    t.PointOk machine point := by
  cases point with
  | idle | pushes => trivial
  | withdrawals | refused => exact Listed.congr h hledger
  | withdrawing entry rest k =>
    obtain ⟨hlisted, hask, hdone⟩ := h
    refine ⟨hlisted.congr hledger, hasks k _ hask, fun hok harm => ?_⟩
    rcases hreply k _ _ hask hok with hbefore | hnot
    · exact hdone hbefore (harmed _ _ harm)
    · exact hnot harm
  | withdrawn => exact ⟨h.1.congr hledger, fun harm => h.2 (harmed _ _ harm)⟩
  | pushing | failing => exact Aimed.congr h hledger
  | recording => exact ⟨h.1.congr hledger, h.2⟩
  | holding => exact ⟨h.1.congr hledger, h.2.1, hasks _ _ h.2.2⟩
  | confirming =>
    obtain ⟨haimed, hsent, session, hask⟩ := h
    exact ⟨haimed.congr hledger, hsent, session, hasks _ _ hask⟩

theorem PointOk.congr (h : s.PointOk machine point) (hledger : t.ledger = s.ledger)
    (hrequests : t.requests = s.requests) (hduties : t.duties = s.duties) :
    t.PointOk machine point :=
  h.mono hledger (hrequests ▸ fun _ _ hask => hask) (hrequests ▸ fun _ _ _ _ hok => .inl hok)
    fun url w harm => (congrFun₂ hduties url w).symm.trans harm

theorem PointOk.goto (h : s.PointOk machine point) : (s.goto point).PointOk machine point :=
  h.congr rfl rfl rfl

theorem Tracked.frame (h : Tracked machine s) (hledger : t.ledger = s.ledger)
    (hstored : t.stored = s.stored)
    (harmed : ∀ url w, t.Armed machine url w → s.Armed machine url w)
    (hunder : ∀ w url, s.UnderWay w url → t.Recorded w url ∨ t.UnderWay w url)
    (hpoint : t.PointOk machine t.point) : Tracked machine t := by
  refine ⟨fun url w harm => ?_, hpoint, hledger ▸ h.keyed, hstored ▸ h.keyedStored⟩
  rcases h.armed url w (harmed url w harm) with hrecorded | hway
  · exact .inl ⟨hledger ▸ hrecorded.1, hstored ▸ hrecorded.2⟩
  · exact hunder w url hway

def repoint (id : String) (policy : Option String) (x : Workload) : Workload :=
  if x.id = id then { x with failoverPolicy := policy } else x

@[simp] theorem repoint_id (id : String) (policy : Option String) (x : Workload) :
    (repoint id policy x).id = x.id := by
  unfold repoint
  split <;> rfl

theorem workload_repoint (s : System) (id w : String) (policy : Option String) :
    ({ s with workloads := s.workloads.map (repoint id policy) } : System).workload w =
      (s.workload w).map (repoint id policy) := by
  unfold workload
  rw [find?_map]
  congr 2
  funext x
  simp

theorem UnderWay.repoint {policy : Option String} (h : s.UnderWay w url)
    (hcond : ∀ push ∈ s.point.unrecorded, push.workload = id →
      policy = some push.url ∨ s.Recorded push.workload push.url) :
    s.Recorded w url ∨
      ({ s with workloads := s.workloads.map (System.repoint id policy) } : System).UnderWay
        w url := by
  obtain ⟨⟨push, hpush, rfl, rfl⟩, hpolicy⟩ := h
  obtain ⟨x, hx, hurl⟩ := bind_eq_some_iff.mp hpolicy
  have hid : x.id = push.workload := by simpa using find?_some hx
  by_cases heq : push.workload = id
  · rcases hcond push hpush heq with hsame | hrecorded
    · refine .inr ⟨⟨push, hpush, rfl, rfl⟩, ?_⟩
      rw [policyOf, workload_repoint, hx]
      simp [System.repoint, hid, heq, hsame]
    · exact .inl hrecorded
  · refine .inr ⟨⟨push, hpush, rfl, rfl⟩, ?_⟩
    rw [policyOf, workload_repoint, hx]
    simpa [System.repoint, hid, heq] using hurl

theorem UnderWay.delete (h : s.UnderWay w url)
    (hcond : ∀ push ∈ s.point.unrecorded, push.workload = id →
      s.Recorded push.workload push.url) :
    s.Recorded w url ∨
      ({ s with workloads := s.workloads.filter (·.id ≠ id) } : System).UnderWay w url := by
  obtain ⟨⟨push, hpush, rfl, rfl⟩, hpolicy⟩ := h
  by_cases heq : push.workload = id
  · exact .inl (hcond push hpush heq)
  · refine .inr ⟨⟨push, hpush, rfl, rfl⟩, ?_⟩
    have hfind : (s.workloads.filter (·.id ≠ id)).find? (·.id = push.workload) =
        s.workloads.find? (·.id = push.workload) := by
      rw [find?_filter]
      congr 1
      funext x
      by_cases hx : x.id = push.workload
      · simp [hx, heq]
      · simp [hx]
    rw [policyOf, workload, hfind]
    exact hpolicy

theorem UnderWay.create (h : s.UnderWay w url) :
    ({ s with workloads := s.workloads ++ [x] } : System).UnderWay w url := by
  obtain ⟨hpush, hpolicy⟩ := h
  obtain ⟨found, hfound, hurl⟩ := bind_eq_some_iff.mp hpolicy
  refine ⟨hpush, ?_⟩
  rw [policyOf, workload, find?_append, show s.workloads.find? _ = some found from hfound]
  exact hurl

theorem armed_setDuty :
    (s.setDuty url w duty).Armed machine url' w' ↔
      if url' = url ∧ w' = w then duty = some ⟨machine, false⟩ else s.Armed machine url' w' := by
  unfold Armed setDuty
  split <;> simp [*]

theorem armed_of_setDuty (hduty : duty = some ⟨machine, false⟩ → s.Armed machine url w)
    (h : (s.setDuty url w duty).Armed machine url' w') : s.Armed machine url' w' := by
  rw [armed_setDuty] at h
  split_ifs at h with hsame
  · obtain ⟨rfl, rfl⟩ := hsame
    exact hduty h
  · exact h

theorem Tracked.setDuty (h : Tracked machine s)
    (hduty : duty = some ⟨machine, false⟩ → s.Armed machine url w) :
    Tracked machine (s.setDuty url w duty) :=
  h.frame rfl rfl (fun _ _ => armed_of_setDuty hduty) (fun _ _ => .inr)
    (h.point.mono rfl (fun _ _ hask => hask) (fun _ _ _ _ hok => .inl hok)
      fun _ _ => armed_of_setDuty hduty)

theorem reply_of_answer_other {j : Nat} (hcall : s.requests.pending k = some call)
    (hother : ∀ w url, call ≠ .withdraw w url) (hask : s.requests.Asks j (.withdraw w url))
    (hok : (s.requests.answer k reply).reply j = some .ok) : s.requests.reply j = some .ok := by
  rcases reply_of_answer hok with hold | ⟨rfl, -⟩
  · exact hold
  · exact absurd ((Requests.Asks.of_pending hcall).unique hask) (hother w url)

theorem Tracked.refused (h : Tracked machine s) :
    Tracked machine { s with requests := s.requests.answer k .refused } := by
  refine h.frame rfl rfl (fun _ _ harm => harm) (fun _ _ => .inr)
    (h.point.mono rfl (fun _ _ hask => hask.answer k _) (fun j w url hask hok => .inl ?_)
      fun _ _ harm => harm)
  rcases reply_of_answer hok with hold | ⟨-, hreply⟩
  · exact hold
  · cases hreply

theorem Tracked.confirmed {session : Nat} (h : Tracked machine s)
    (hcall : s.requests.pending k = some (.confirm url session)) :
    Tracked machine { s with requests := s.requests.answer k reply } :=
  h.frame rfl rfl (fun _ _ harm => harm) (fun _ _ => .inr)
    (h.point.mono rfl (fun _ _ hask => hask.answer k _)
      (fun _ _ _ hask hok => .inl (reply_of_answer_other hcall nofun hask hok))
      fun _ _ harm => harm)

theorem withdrawn_not_armed (duty : Option Duty) :
    replicationWithdrawn machine duty ≠ some ⟨machine, false⟩ := by
  cases duty with
  | none => nofun
  | some found =>
    intro h
    simp only [replicationWithdrawn] at h
    split_ifs at h with hkept
    cases h
    simp at hkept

theorem Tracked.withdrawn {lands : Bool} (h : Tracked machine s)
    (hcall : s.requests.pending k = some (.withdraw w url))
    (hcond : s.Armed machine url w → lands = true) :
    Tracked machine { s.setDuty url w (if lands then replicationWithdrawn machine (s.duties url w)
                                        else s.duties url w)
                      with requests := s.requests.answer k .ok } := by
  -- after the request is served the duty is not armed, whether the delete was needed or not
  have hnot : (if lands then replicationWithdrawn machine (s.duties url w)
      else s.duties url w) ≠ some ⟨machine, false⟩ := by
    split
    · exact withdrawn_not_armed _
    · rename_i hlands
      exact fun harm => hlands (hcond harm)
  have harmed : ∀ url' w', (s.setDuty url w (if lands then
      replicationWithdrawn machine (s.duties url w) else s.duties url w)).Armed machine url' w' →
      s.Armed machine url' w' :=
    fun _ _ => armed_of_setDuty fun harm => absurd harm hnot
  refine h.frame rfl rfl harmed (fun _ _ => .inr)
    (h.point.mono rfl (fun _ _ hask => hask.answer k _) (fun j w' url' hask hok => ?_) harmed)
  rcases reply_of_answer hok with hold | ⟨rfl, -⟩
  · exact .inl hold
  · cases (Requests.Asks.of_pending hcall).unique hask
    refine .inr fun harm => hnot ?_
    have := armed_setDuty.mp (show (s.setDuty url w _).Armed machine url w from harm)
    simpa using this

theorem Tracked.heldInTime (h : Tracked machine s)
    (hcall : s.requests.pending k = some (.hold w url)) (hwaits : s.waitsFor = some k)
    (hnamed : s.policyOf w = some url ∨ s.Recorded w url) :
    Tracked machine { s.setDuty url w (replicationHeld machine (s.duties url w))
                      with held, requests := s.requests.answer k .ok } := by
  have hask := Requests.Asks.of_pending hcall
  have hpoint := h.point
  unfold waitsFor at hwaits
  cases hp : s.point with
  | withdrawing entry rest j =>
    rw [hp] at hwaits hpoint
    cases hwaits
    cases hask.unique hpoint.2.1
  | confirming push rest j =>
    rw [hp] at hwaits hpoint
    cases hwaits
    obtain ⟨-, -, session, hconfirm⟩ := hpoint
    cases hask.unique hconfirm
  | holding push rest j =>
    rw [hp] at hwaits hpoint
    cases hwaits
    obtain ⟨haimed, hsent, hhold⟩ := hpoint
    cases hask.unique hhold
    refine ⟨fun url' w' harm => ?_, ?_, h.keyed, h.keyedStored⟩
    · have harm' := armed_setDuty.mp
        (show (s.setDuty push.url push.workload _).Armed machine url' w' from harm)
      split_ifs at harm' with hsame
      · obtain ⟨rfl, rfl⟩ := hsame
        rcases hnamed with hpolicy | hrecorded
        · have hpush : push ∈ s.point.unrecorded := by
            rw [hp]
            rfl
          exact .inr ⟨⟨push, hpush, rfl, rfl⟩, hpolicy⟩
        · exact .inl hrecorded
      · exact h.armed url' w' harm'
    · show PointOk machine _ s.point
      rw [hp]
      exact ⟨haimed.congr rfl, hsent, hhold.answer k _⟩
  | idle | withdrawals | refused | withdrawn | pushes | pushing | recording | failing =>
    rw [hp] at hwaits
    cases hwaits

theorem Tracked.heldNot (h : Tracked machine s)
    (hcall : s.requests.pending k = some (.hold w url)) :
    Tracked machine { s.setDuty url w (s.duties url w)
                      with held, requests := s.requests.answer k .ok } := by
  have harmed : ∀ url' w', (s.setDuty url w (s.duties url w)).Armed machine url' w' →
      s.Armed machine url' w' := fun _ _ => armed_of_setDuty fun harm => harm
  exact h.frame rfl rfl harmed (fun _ _ => .inr)
    (h.point.mono rfl (fun _ _ hask => hask.answer k _)
      (fun _ _ _ hask hok => .inl (reply_of_answer_other hcall nofun hask hok)) harmed)

theorem Tracked.serveCall {lands held : Bool} (h : Tracked machine s)
    (hcall : s.requests.pending k = some call) (hcond : s.ServesInTime machine k lands call) :
    Tracked machine (s.serveCall machine k lands held call) := by
  cases call with
  | hold w url =>
    cases lands with
    | true =>
      obtain ⟨hwaits, hnamed⟩ := hcond rfl
      exact h.heldInTime hcall hwaits hnamed
    | false => exact h.heldNot hcall
  | confirm url session => exact h.confirmed hcall
  | withdraw w url => exact h.withdrawn hcall hcond

@[simp] theorem writeLedger_ledger (write : Written) (f : Ledger → Ledger) :
    (s.writeLedger write f).ledger = if write = .ok then f s.ledger else s.ledger := by
  cases write <;> rfl

@[simp] theorem writeLedger_policyOf (write : Written) (f : Ledger → Ledger) :
    (s.writeLedger write f).policyOf w = s.policyOf w := by
  cases write <;> rfl

@[simp] theorem writeLedger_armed (write : Written) (f : Ledger → Ledger) :
    (s.writeLedger write f).Armed machine url w ↔ s.Armed machine url w := by
  cases write <;> rfl

theorem writeLedger_keeps {P : Ledger → Prop} (write : Written)
    (hf : ∀ {ledger}, P ledger → P (f ledger)) (h : P s.ledger ∧ P s.stored) :
    P (s.writeLedger write f).ledger ∧ P (s.writeLedger write f).stored := by
  cases write with
  | ok => exact ⟨hf h.1, hf h.2⟩
  | lost => exact h
  | landed => exact ⟨h.1, hf h.2⟩

theorem Recorded.write (h : s.Recorded w url) (write : Written)
    (hf : ∀ {ledger : Ledger}, ledger.Names w url → (f ledger).Names w url) :
    (s.writeLedger write f).Recorded w url :=
  writeLedger_keeps (P := (Ledger.Names · w url)) write hf h

theorem recorded_put (s : System) (entry : ReplicationEntry) :
    (s.writeLedger .ok (put entry)).Recorded entry.workloadID entry.standbyURL :=
  ⟨names_put_self, names_put_self⟩

theorem Listed.write (h : s.Listed (entry :: rest)) (write : Written)
    (hf : ∀ {w url}, w ≠ entry.workloadID → s.ledger.Names w url → (f s.ledger).Names w url) :
    (s.writeLedger write f).Listed rest := by
  obtain ⟨hfresh, hrest⟩ := nodup_cons.mp h.distinct
  refine ⟨hrest, fun other hother => ?_⟩
  have hnames := h.named other (.tail _ hother)
  rw [writeLedger_ledger]
  split
  · refine hf (fun heq => hfresh ?_) hnames
    exact List.mem_map.mpr ⟨other, hother, heq⟩
  · exact hnames

theorem Tracked.recordRefusal {write : Written} (h : Tracked machine s)
    (hp : s.point = .refused entry rest) :
    Tracked machine ((s.writeLedger write (put (entry.failed s.now))).goto
      (.withdrawals rest)) := by
  have hlisted : s.Listed (entry :: rest) := by simpa only [hp, PointOk] using h.point
  have hnames := writeLedger_keeps (P := Ledger.Keyed) write (fun hk => hk.put (entry.failed s.now))
    ⟨h.keyed, h.keyedStored⟩
  refine ⟨fun url w harm => ?_, ?_, hnames.1, hnames.2⟩
  · rcases h.armed url w ((writeLedger_armed _ _).mp harm) with hrecorded | ⟨⟨push, hpush, -⟩, -⟩
    · refine .inl (hrecorded.write write fun hn => hn.put fun hw => ?_)
      exact (hlisted.named entry (.head _)).unique (hw ▸ hrecorded.1)
    · rw [hp] at hpush
      cases hpush
  · refine Listed.congr (hlisted.write write fun {w _} hne hn => ?_) rfl
    exact (names_put_ne (show w ≠ (entry.failed s.now).workloadID from hne)).mpr hn

theorem Tracked.forget {write : Written} (h : Tracked machine s)
    (hp : s.point = .withdrawn entry rest) :
    Tracked machine ((s.writeLedger write (delete entry.workloadID)).goto
      (.withdrawals rest)) := by
  obtain ⟨hlisted, hnot⟩ : s.Listed (entry :: rest) ∧
      ¬ s.Armed machine entry.standbyURL entry.workloadID := by
    simpa only [hp, PointOk] using h.point
  have hnames := writeLedger_keeps (P := Ledger.Keyed) write (fun hk => hk.delete entry.workloadID)
    ⟨h.keyed, h.keyedStored⟩
  refine ⟨fun url w harm => ?_, ?_, hnames.1, hnames.2⟩
  · have harm := (writeLedger_armed _ _).mp harm
    rcases h.armed url w harm with hrecorded | ⟨⟨push, hpush, -⟩, -⟩
    · by_cases hw : w = entry.workloadID
      · subst hw
        cases (hlisted.named entry (.head _)).unique hrecorded.1
        exact absurd harm hnot
      · exact .inl (hrecorded.write write (names_delete_ne hw).mpr)
    · rw [hp] at hpush
      cases hpush
  · refine Listed.congr (hlisted.write write fun hne hn => ?_) rfl
    exact (names_delete_ne hne).mpr hn

theorem Aimed.write {write : Written} (h : s.Aimed push)
    (hentry : entry.workloadID = push.workload ∧ entry.standbyURL = push.url) :
    (s.writeLedger write (put entry)).Aimed push := by
  refine ⟨h.workload_eq, h.url_eq, fun url hn => ?_⟩
  rw [writeLedger_ledger] at hn
  split at hn
  · have hself : (s.ledger.put entry).Names push.workload push.url := by
      rw [← hentry.1, ← hentry.2]
      exact names_put_self
    exact hn.unique hself
  · exact h.only url hn

/-- The write that ends a push succeeds, or the push stays unrecorded, or the ledger had named the
standby before. -/
theorem Tracked.recordPush {write : Written} (h : Tracked machine s) (haimed : s.Aimed push)
    (hentry : entry.workloadID = push.workload ∧ entry.standbyURL = push.url)
    (hunrecorded : ∀ other ∈ s.point.unrecorded, other = push)
    (hend : write = .ok ∨ push ∈ point.unrecorded ∨ s.point.unrecorded = none ∨
      s.Recorded push.workload push.url)
    (hpoint : (s.writeLedger write (put entry)).PointOk machine point) :
    Tracked machine ((s.writeLedger write (put entry)).goto point) := by
  have hnames := writeLedger_keeps (P := Ledger.Keyed) write (fun hk => hk.put entry)
    ⟨h.keyed, h.keyedStored⟩
  refine ⟨fun url w harm => ?_, ?_, hnames.1, hnames.2⟩
  · have hkept : ∀ {w url}, s.Recorded w url →
        (s.writeLedger write (put entry)).Recorded w url := by
      intro w url hrecorded
      refine hrecorded.write write fun hn => hn.put fun hw => ?_
      rw [hentry.2]
      exact (haimed.only url (hentry.1 ▸ hw ▸ hrecorded.1)).symm
    rcases h.armed url w ((writeLedger_armed _ _).mp harm) with
      hrecorded | ⟨⟨other, hother, hw, hu⟩, hpolicy⟩
    · exact .inl (hkept hrecorded)
    · cases hunrecorded other hother
      subst hw hu
      rcases hend with rfl | hstays | hnone | hrecorded
      · refine .inl ?_
        have := recorded_put s entry
        rwa [hentry.1, hentry.2] at this
      · refine .inr ⟨⟨push, hstays, rfl, rfl⟩, ?_⟩
        exact (writeLedger_policyOf _ _).trans hpolicy
      · rw [hnone] at hother
        cases hother
      · exact .inl (hkept hrecorded)
  · exact hpoint.goto

theorem Tracked.goto (h : Tracked machine s)
    (hunrecorded : ∀ push ∈ s.point.unrecorded, push ∈ point.unrecorded)
    (hpoint : s.PointOk machine point) : Tracked machine (s.goto point) := by
  refine h.frame rfl rfl (fun _ _ harm => harm) (fun w url hway => .inr ?_) hpoint.goto
  obtain ⟨⟨push, hpush, hat⟩, hpolicy⟩ := hway
  exact ⟨⟨push, hunrecorded push hpush, hat⟩, hpolicy⟩

theorem Tracked.ask {wait : Nat → Point} (h : Tracked machine s)
    (hunrecorded : ∀ push ∈ s.point.unrecorded, push ∈ (wait s.requests.length).unrecorded)
    (hpoint : (s.ask call wait).PointOk machine (wait s.requests.length)) :
    Tracked machine (s.ask call wait) := by
  refine h.frame rfl rfl (fun _ _ harm => harm) (fun w url hway => .inr ?_) hpoint
  obtain ⟨⟨push, hpush, hat⟩, hpolicy⟩ := hway
  exact ⟨⟨push, hunrecorded push hpush, hat⟩, hpolicy⟩

theorem due_aimed (h : s.due x choice = some push) : s.Aimed push := by
  unfold due at h
  split at h
  · rename_i url root hpolicy hroot
    split_ifs at h
    split at h
    · rename_i entry hentry
      split_ifs at h with _ hother _
      cases h
      refine ⟨rfl, rfl, ?_⟩
      rintro other ⟨found, hfound, rfl⟩
      cases hentry.symm.trans hfound
      simpa using hother
    · rename_i hnone
      cases h
      refine ⟨rfl, rfl, ?_⟩
      rintro other ⟨found, hfound, -⟩
      cases hnone.symm.trans hfound
  · cases h

section

variable (h : Tracked machine s)

include h

theorem Tracked.advance (hcond : s.KeepsTrack machine (.step choice))
    (hstep : s.advance choice = some t) : Tracked machine t := by
  have hok := h.point
  unfold System.advance at hstep
  cases hp : s.point with
  | idle =>
    rw [hp] at hstep
    cases hstep
    obtain ⟨hdistinct, hnamed⟩ := h.keyed.list
    exact h.goto (by simp [hp, unrecorded]) ⟨hdistinct, hnamed⟩
  | withdrawals rest =>
    rw [hp] at hstep hok
    cases rest with
    | nil =>
      cases hstep
      exact h.goto (by simp [hp, unrecorded]) trivial
    | cons entry rest =>
      simp only at hstep
      split_ifs at hstep
      · cases hstep
        exact h.goto (by simp [hp, unrecorded]) (Listed.tail hok)
      · cases hstep
        exact h.goto (by simp [hp, unrecorded]) hok
      · cases hstep
        refine h.ask (by simp [hp, unrecorded]) ⟨Listed.congr hok rfl,
          asks_send _ _, fun hreply => ?_⟩
        rw [System.ask, reply_send_length] at hreply
        cases hreply
  | refused entry rest =>
    rw [hp] at hstep
    cases hstep
    exact h.recordRefusal hp
  | withdrawn entry rest =>
    rw [hp] at hstep
    cases hstep
    exact h.forget hp
  | pushes rest =>
    rw [hp] at hstep
    cases rest with
    | nil =>
      cases hstep
      exact h.goto (by simp [hp, unrecorded]) trivial
    | cons x rest =>
      simp only at hstep
      split at hstep
      · cases hstep
        exact h.goto (by simp [hp, unrecorded]) trivial
      · rename_i push hdue
        cases hstep
        exact h.goto (by simp [hp, unrecorded]) (due_aimed hdue)
  | pushing push rest =>
    rw [hp] at hstep hok
    simp only at hstep
    split_ifs at hstep
    · cases hstep
      refine h.ask (by simp [hp, unrecorded]) ⟨?_, rfl, asks_send _ _⟩
      exact ⟨hok.workload_eq, hok.url_eq, hok.only⟩
    · cases hstep
      exact h.goto (by simp [hp, unrecorded]) hok
  | recording push rest =>
    rw [hp] at hstep hok
    cases hstep
    obtain ⟨haimed, hsent⟩ := hok
    refine h.recordPush haimed ⟨rfl, rfl⟩ (by simp [hp, unrecorded, eq_comm]) ?_ ?_
    · by_cases hwrite : choice.write = .ok
      · exact .inl hwrite
      · exact .inr (.inl (by simp [hwrite, unrecorded, hsent]))
    · split
      · trivial
      · exact haimed.write ⟨rfl, rfl⟩
  | failing push rest =>
    rw [hp] at hstep hok
    cases hstep
    refine h.recordPush hok ⟨hok.workload_eq, hok.url_eq⟩ ?_ ?_ trivial
    · intro other hother
      simp only [hp, unrecorded] at hother
      split_ifs at hother
      · exact (some.inj hother).symm
      · cases hother
    · have hlast : push ∈ s.point.ending := by
        rw [hp]
        rfl
      cases hsent : push.sent with
      | false => exact .inr (.inr (.inl (by simp [hp, unrecorded, hsent])))
      | true =>
        rcases hcond push hlast hsent with hwrite | hrecorded
        · exact .inl hwrite
        · exact .inr (.inr (.inr hrecorded))
  | withdrawing | holding | confirming =>
    rw [hp] at hstep
    cases hstep

theorem Tracked.answered
    (hreply : ∀ entry rest k, s.point = .withdrawing entry rest k → reply = .ok →
      s.requests.reply k = some .ok) (hstep : s.answered reply = some t) : Tracked machine t := by
  have hok := h.point
  unfold System.answered at hstep
  cases hp : s.point with
  | withdrawing entry rest k =>
    rw [hp] at hstep hok
    obtain ⟨hlisted, -, hdone⟩ := hok
    cases hstep
    refine h.goto (by simp [hp, unrecorded]) ?_
    split
    · exact ⟨hlisted, hdone (hreply entry rest k hp ‹_›)⟩
    · exact hlisted
  | holding push rest k =>
    rw [hp] at hstep hok
    simp only at hstep
    split_ifs at hstep
    · cases hstep
      exact h.ask (by simp [hp, unrecorded])
        ⟨hok.1.congr rfl, hok.2.1, k, asks_send _ _⟩
    · cases hstep
      exact h.goto (by simp [hp, unrecorded, hok.2.1]) hok.1
  | confirming push rest k =>
    rw [hp] at hstep hok
    obtain ⟨haimed, hsent, -⟩ := hok
    cases hstep
    split
    · exact h.goto (by simp [hp, unrecorded]) ⟨haimed, hsent⟩
    · exact h.goto (by simp [hp, unrecorded, hsent]) haimed
  | idle | withdrawals | refused | withdrawn | pushes | pushing | recording | failing =>
    rw [hp] at hstep
    cases hstep

theorem Tracked.crash (hcond : ∀ push ∈ s.point.unrecorded, s.stored.Names push.workload push.url) :
    Tracked machine { s with ledger := s.stored, point := .idle } := by
  refine ⟨fun url w harm => .inl ?_, trivial, h.keyedStored, h.keyedStored⟩
  rcases h.armed url w harm with hrecorded | ⟨⟨push, hpush, rfl, rfl⟩, -⟩
  · exact ⟨hrecorded.2, hrecorded.2⟩
  · exact ⟨hcond push hpush, hcond push hpush⟩

theorem Tracked.compact : Tracked machine { s with stored := s.ledger } := by
  refine ⟨fun url w harm => ?_, ?_, h.keyed, h.keyed⟩
  · rcases h.armed url w harm with hrecorded | hway
    · exact .inl ⟨hrecorded.1, hrecorded.1⟩
    · exact .inr hway
  · exact h.point.congr rfl rfl rfl

theorem Tracked.operate {workloads : List Workload} (hunder : ∀ w url, s.UnderWay w url →
      s.Recorded w url ∨ ({ s with workloads } : System).UnderWay w url) :
    Tracked machine { s with workloads } :=
  h.frame rfl rfl (fun _ _ harm => harm) hunder (h.point.congr rfl rfl rfl)

end

theorem held_not_armed {source : String} (hsource : source ≠ machine)
    (h : replicationHeld source duty = some ⟨machine, false⟩) : duty = some ⟨machine, false⟩ := by
  cases duty with
  | none =>
    cases h
    exact absurd rfl hsource
  | some found =>
    simp only [replicationHeld, some.injEq] at h
    split_ifs at h
    · rw [h]
    · exact absurd (congrArg Duty.source h) hsource

theorem step_tracked (h : Tracked machine s) (hcond : s.KeepsTrack machine a)
    (hstep : s.step machine a = some t) : Tracked machine t := by
  cases a with
  | tick seconds =>
    cases hstep
    exact h.frame rfl rfl (fun _ _ harm => harm) (fun _ _ => .inr) (h.point.congr rfl rfl rfl)
  | setFailoverPolicy id policy =>
    cases hstep
    exact h.operate fun w url hway => hway.repoint hcond
  | create x =>
    obtain ⟨-, ht⟩ := ite_none_left_eq_some.mp hstep
    cases ht
    exact h.operate fun w url hway => .inr hway.create
  | delete id =>
    cases hstep
    exact h.operate fun w url hway => hway.delete hcond
  | step choice => exact h.advance hcond hstep
  | answer =>
    obtain ⟨reply, hreply, ht⟩ := bind_eq_some_iff.mp hstep
    obtain ⟨k, hk, hfound⟩ := bind_eq_some_iff.mp hreply
    refine h.answered (fun entry rest j hp hok => ?_) ht
    rw [waitsFor, hp] at hk
    cases hk
    rw [hfound, hok]
  | giveUp =>
    obtain ⟨k, -, ht⟩ := bind_eq_some_iff.mp hstep
    refine h.answered (fun _ _ _ _ hok => ?_) ht
    cases hok
  | serve k served =>
    obtain ⟨call, hcall, rfl⟩ := map_eq_some_iff.mp hstep
    cases served with
    | done lands held => exact h.serveCall hcall (hcond call hcall)
    | refuse => exact h.refused
  | compact =>
    cases hstep
    exact h.compact
  | crash =>
    cases hstep
    exact h.crash hcond
  | failOver url w =>
    cases hstep
    refine h.setDuty fun harm => ?_
    obtain ⟨duty, -, hduty⟩ := map_eq_some_iff.mp harm
    cases hduty
  | otherHold url w source =>
    obtain ⟨hother, ht⟩ := ite_none_left_eq_some.mp hstep
    cases ht
    exact h.setDuty (held_not_armed hother)
  | drop url w =>
    cases hstep
    exact h.setDuty nofun

theorem initial_tracked (machine : String) (workloads : List Workload) :
    Tracked machine (initial workloads) :=
  ⟨nofun, trivial, nofun, nofun⟩

/-- In a run that keeps track of the holds it has sent, every standby with an armed duty of this
source is in the workload's ledger entry or its policy. -/
theorem no_duty_stranded {workloads : List Workload} {run : List Action}
    (hmeets : Meets (step machine) (KeepsTrack machine) (initial workloads) run)
    (hrun : exec (step machine) (initial workloads) run = some s)
    (harm : s.Armed machine url w) : s.ledger.Names w url ∨ s.policyOf w = some url := by
  have h : Tracked machine s :=
    exec_invariant (Tracked machine) (fun _ _ _ hinv hcond hstep => step_tracked hinv hcond hstep)
      (initial_tracked machine workloads) hmeets hrun
  rcases h.armed url w harm with hrecorded | hway
  · exact .inl hrecorded.1
  · exact .inr hway.2

def sampleWorkload : Workload := ⟨"w", "job", some "https://a"⟩

def smoothly : Choice := ⟨true, false, some "checkpoint", .ok⟩

def firstHold : List Action :=
  [.step smoothly, .step smoothly, .step smoothly, .step smoothly, .serve 0 (.done true true)]

def recordedPush : List Action :=
  firstHold ++ [.answer, .serve 1 (.done true true), .answer, .step smoothly,
    .setFailoverPolicy "w" (some "https://b")]

theorem recordedPush_not_stranded : ∃ s,
    Meets (step "source") (KeepsTrack "source") (initial [sampleWorkload]) recordedPush ∧
    exec (step "source") (initial [sampleWorkload]) recordedPush = some s ∧
    s.Armed "source" "https://a" "w" ∧
    (s.ledger.Names "w" "https://a" ∨ s.policyOf "w" = some "https://a") := by
  have hmeets : Meets (step "source") (KeepsTrack "source") (initial [sampleWorkload])
      recordedPush := by decide
  exact exists_and_left.mpr ⟨hmeets, exists_some_and (by decide) fun _ hs harm =>
    no_duty_stranded hmeets hs harm⟩

def crashedPush : List Action :=
  firstHold ++ [.answer, .crash, .setFailoverPolicy "w" (some "https://b")]

def failedWithdrawal : List Action :=
  recordedPush ++ [.step smoothly, .step smoothly, .step smoothly, .serve 2 (.done false true),
    .answer, .step smoothly]

/-- A duty that neither the ledger nor the policy names. -/
def Stranded (machine : String) (s : System) (url workload : String) : Prop :=
  s.Armed machine url workload ∧ ¬ s.ledger.Names workload url ∧ s.policyOf workload ≠ some url

instance (machine : String) (s : System) (url workload : String) :
    Decidable (s.Stranded machine url workload) :=
  inferInstanceAs (Decidable (_ ∧ ¬ _ ∧ _ ≠ _))

theorem duty_stranded :
    (∃ s, exec (step "source") (initial [sampleWorkload]) crashedPush = some s ∧
      s.Stranded "source" "https://a" "w") ∧
    ∃ s, exec (step "source") (initial [sampleWorkload]) failedWithdrawal = some s ∧
      s.Stranded "source" "https://a" "w" := by
  decide

end System

end Shiftgate.Failover.Replication
