import Shiftgate.Library.FileTable
import Shiftgate.Library.Runs

/-! The bandwidth meter of the agent (`reporter.go`) and the heartbeat handler that records its
deltas (`handleMachineHeartbeat`). The network may lose or delay the request and the response apart
from each other. -/

namespace Shiftgate.Usage

open Library List Option FileTable

def relayTransferChannel : String := "relay"

def maxPendingTransferBytes : Int64 := 1099511627776

def accumulate (counters : FileTable Int64) (channel : String) (bytes : Int64) : FileTable Int64 :=
  let pending := (counters.get channel).getD 0
  if maxPendingTransferBytes ≤ pending then counters
  else if maxPendingTransferBytes < pending + bytes then
    counters.set channel maxPendingTransferBytes
  else counters.set channel (pending + bytes)

def recordTransferBytes (trim : String → String) (counters : FileTable Int64) (channel : String)
    (bytes : Int64) : FileTable Int64 :=
  if bytes ≤ 0 ∨ trim channel = "" then counters
  else if channel = relayTransferChannel then counters
  else accumulate counters channel bytes

def restoreTransferBytes (counters drained : FileTable Int64) : FileTable Int64 :=
  drained.entries.foldl (fun counters entry =>
    if entry.1 = relayTransferChannel then counters
    else accumulate counters entry.1 entry.2) counters

/-- The client failed, or an answer with its status, and whether its body names the field
`transfer_bytes`. -/
inductive Outcome where
  | failed
  | answered (status : Nat) (mentions : Bool)

def Outcome.restores : Outcome → Bool
  | .failed => true
  | .answered status _ => status = 401 || status = 403 || status = 400

def Outcome.disables (drained : FileTable Int64) : Outcome → Bool
  | .failed => false
  | .answered status mentions => status = 400 && drained.entries ≠ [] && mentions

/-- `recorded` is the handler's doing, `restored` the reporter's. -/
structure Heartbeat where
  transferBytes : FileTable Int64
  recorded : Bool
  restored : Bool

inductive Report where
  | idle
  | prepared (drained : FileTable Int64)
  | waiting (heartbeat : Nat)

structure Meter where
  transferBytes : FileTable Int64
  transferDisabled : Bool
  report : Report
  heartbeats : List Heartbeat
  usage : List (String × Int64)

/-- `abort` is a payload that cannot be sent. `handle` runs the handler; `fails` are the channels
whose insert fails or is not reached. -/
inductive Action where
  | record (channel : String) (bytes : Int64)
  | report
  | abort
  | send
  | conclude (outcome : Outcome)
  | handle (heartbeat : Nat) (fails : String → Bool)
  | restart

def recordedEntries (fails : String → Bool) (entries : List (String × Int64)) :
    List (String × Int64) :=
  entries.filter fun entry => 0 < entry.2 && !fails entry.1 &&
    entry.1 ∈ ["relay", "egress", "restore", "peer"]

def Meter.step (trim : String → String) (m : Meter) : Action → Option Meter
  | .record channel bytes =>
    some { m with transferBytes := recordTransferBytes trim m.transferBytes channel bytes }
  | .report =>
    match m.report with
    | .idle =>
      if m.transferDisabled then some { m with report := .prepared .empty }
      else some { m with transferBytes := .empty, report := .prepared m.transferBytes }
    | _ => none
  | .abort =>
    match m.report with
    | .prepared drained => some { m with
        transferBytes := restoreTransferBytes m.transferBytes drained, report := .idle }
    | _ => none
  | .send =>
    match m.report with
    | .prepared drained => some { m with
        report := .waiting m.heartbeats.length
        heartbeats := m.heartbeats ++ [⟨drained, false, false⟩] }
    | _ => none
  | .conclude outcome =>
    match m.report with
    | .waiting k => (m.heartbeats[k]?).map fun heartbeat =>
        if outcome.restores then
          { m with
            transferBytes := restoreTransferBytes m.transferBytes heartbeat.transferBytes
            transferDisabled := m.transferDisabled || outcome.disables heartbeat.transferBytes
            report := .idle
            heartbeats := m.heartbeats.set k { heartbeat with restored := true } }
        else { m with report := .idle }
    | _ => none
  | .handle k fails =>
    (m.heartbeats[k]?).bind fun heartbeat =>
      if heartbeat.recorded then none
      else some { m with
        heartbeats := m.heartbeats.set k { heartbeat with recorded := true }
        usage := m.usage ++ recordedEntries fails heartbeat.transferBytes.entries }
  | .restart => some { m with transferBytes := .empty, transferDisabled := false, report := .idle }

def Meter.initial : Meter := ⟨.empty, false, .idle, [], []⟩

def total (entries : List (String × Int64)) (channel : String) : Int :=
  ((entries.filter (·.1 = channel)).map (·.2.toInt)).sum

/-- The positive deltas that were passed to `RecordTransferBytes`. -/
def deltas (actions : List Action) : List (String × Int64) :=
  actions.filterMap fun
    | .record channel bytes => if 0 < bytes then some (channel, bytes) else none
    | _ => none

/-- A heartbeat that the reporter takes for failed is never recorded. -/
def Meter.careful (m : Meter) : Action → Bool
  | .conclude outcome => !outcome.restores ||
      match m.report with
      | .waiting k => (m.heartbeats[k]?).all (!·.recorded)
      | _ => true
  | .handle k _ => (m.heartbeats[k]?).all (!·.restored)
  | _ => true

/-! ### Weights

A counter can wrap, and a negative counter is not recorded. Read as unsigned, the counters never
hold more than what was added to them. -/

def weight (v : Int64) : Nat := v.toBitVec.toNat

theorem weight_add_le (a b : Int64) : weight (a + b) ≤ weight a + weight b := by
  unfold weight
  rw [Int64.toBitVec_add, BitVec.toNat_add]
  exact Nat.mod_le _ _

variable {v : Int64} {name : String} {a : Action}

theorem weight_of_pos (h : 0 < v) : v.toInt = weight v := by
  have hpos : 0 < v.toInt := by simpa using Int64.lt_iff_toInt_lt.mp h
  have htoInt : v.toInt = v.toBitVec.toInt := rfl
  rw [htoInt, BitVec.toInt_eq_toNat_cond] at hpos ⊢
  unfold weight
  split_ifs at hpos ⊢ <;> omega

theorem weight_cap_le (h : maxPendingTransferBytes < v) :
    weight maxPendingTransferBytes ≤ weight v := by
  have hcap : (0 : Int64) < maxPendingTransferBytes := by decide
  have hlt := Int64.lt_iff_toInt_lt.mp h
  rw [weight_of_pos hcap, weight_of_pos (Int64.lt_trans hcap h)] at hlt
  omega

def holds (entries : List (String × Int64)) (channel : String) : Nat :=
  ((entries.filter (·.1 = channel)).map (weight ·.2)).sum

theorem holds_cons (entry : String × Int64) (rest : List (String × Int64)) (channel : String) :
    holds (entry :: rest) channel = holds [entry] channel + holds rest channel := by
  unfold holds
  by_cases h : entry.1 = channel <;> simp [h]

theorem holds_empty (channel : String) : holds empty.entries channel = 0 := rfl

theorem holds_single_le (name : String) {old more : Int64} (h : weight v ≤ weight old + weight more)
    (channel : String) :
    holds [(name, v)] channel ≤ holds [(name, old)] channel + holds [(name, more)] channel := by
  unfold holds
  by_cases hname : name = channel
  · simpa [hname] using h
  · simp [hname]

theorem holds_setEntries_le {entries : List (String × Int64)} {more : Int64}
    (h : weight v ≤ weight ((entries.lookup name).getD 0) + weight more) (channel : String) :
    holds (setEntries name v entries) channel ≤
      holds entries channel + holds [(name, more)] channel := by
  induction entries with
  | nil =>
    have hzero : holds [(name, 0)] channel = 0 := by
      by_cases hname : name = channel <;> simp [holds, hname, weight]
    have hsingle := holds_single_le name h channel
    rw [lookup_nil, getD_none, hzero] at hsingle
    exact hsingle
  | cons entry rest ih =>
    obtain ⟨n, w⟩ := entry
    rw [lookup_cons_eq_ite] at h
    rw [setEntries, holds_cons (n, w)]
    split_ifs with hn
    · subst hn
      rw [if_pos rfl] at h
      have hsingle := holds_single_le n h channel
      rw [holds_cons]
      simp only [getD_some] at hsingle
      omega
    · rw [if_neg (Ne.symm hn)] at h
      have hrest := ih h
      rw [holds_cons]
      omega

theorem holds_accumulate_le (counters : FileTable Int64) (name : String) (bytes : Int64)
    (channel : String) : holds (accumulate counters name bytes).entries channel ≤
      holds counters.entries channel + holds [(name, bytes)] channel := by
  have hadd := weight_add_le ((counters.get name).getD 0) bytes
  unfold accumulate
  simp only
  split_ifs with hfull hcap
  · exact Nat.le_add_right _ _
  · exact holds_setEntries_le ((weight_cap_le hcap).trans hadd) channel
  · exact holds_setEntries_le hadd channel

theorem holds_restore_le (counters drained : FileTable Int64) (channel : String) :
    holds (restoreTransferBytes counters drained).entries channel ≤
      holds counters.entries channel + holds drained.entries channel := by
  unfold restoreTransferBytes
  generalize drained.entries = entries
  induction entries generalizing counters with
  | nil => exact Nat.le_add_right _ _
  | cons entry rest ih =>
    obtain ⟨name, v⟩ := entry
    rw [foldl_cons, holds_cons]
    refine (ih _).trans ?_
    have hstep := holds_accumulate_le counters name v channel
    simp only
    split_ifs <;> omega

theorem total_append (a b : List (String × Int64)) (channel : String) :
    total (a ++ b) channel = total a channel + total b channel := by
  simp [total]

theorem total_single (h : 0 < v) (channel : String) :
    total [(name, v)] channel = holds [(name, v)] channel := by
  by_cases hname : name = channel <;> simp [total, holds, hname, weight_of_pos h]

theorem total_recordedEntries_le (fails : String → Bool) (entries : List (String × Int64))
    (channel : String) : total (recordedEntries fails entries) channel ≤ holds entries channel := by
  induction entries with
  | nil => simp [recordedEntries, total, holds]
  | cons entry rest ih =>
    obtain ⟨name, v⟩ := entry
    unfold recordedEntries at ih ⊢
    rw [holds_cons, filter_cons]
    split_ifs with hkept
    · simp only [Bool.and_eq_true, decide_eq_true_eq] at hkept
      rw [← singleton_append, total_append, total_single hkept.1.1]
      omega
    · omega

def Heartbeat.owed (channel : String) (heartbeat : Heartbeat) : Nat :=
  if heartbeat.recorded || heartbeat.restored then 0
  else holds heartbeat.transferBytes.entries channel

theorem owed_open {heartbeat : Heartbeat} {channel : String}
    (hrecorded : heartbeat.recorded = false) (hrestored : heartbeat.restored = false) :
    heartbeat.owed channel = holds heartbeat.transferBytes.entries channel := by
  simp [Heartbeat.owed, hrecorded, hrestored]

theorem owed_recorded (heartbeat : Heartbeat) (channel : String) :
    Heartbeat.owed channel { heartbeat with recorded := true } = 0 := rfl

theorem owed_restored (heartbeat : Heartbeat) (channel : String) :
    Heartbeat.owed channel { heartbeat with restored := true } = 0 := by
  simp [Heartbeat.owed]

def Report.owed (channel : String) : Report → Nat
  | .prepared drained => holds drained.entries channel
  | _ => 0

def Meter.committed (m : Meter) (channel : String) : Int :=
  total m.usage channel + (holds m.transferBytes.entries channel + m.report.owed channel +
    (m.heartbeats.map (Heartbeat.owed channel)).sum : Nat)

theorem sum_map_set {α : Type} (f : α → Nat) {l : List α} {k : Nat} {old : α}
    (h : l[k]? = some old) (new : α) :
    ((l.set k new).map f).sum + f old = (l.map f).sum + f new := by
  induction l generalizing k with
  | nil => simp at h
  | cons a rest ih =>
    cases k with
    | zero =>
      cases h
      simp only [set_cons_zero, map_cons, sum_cons]
      omega
    | succ k =>
      have hrest := ih (show rest[k]? = some old from h)
      simp only [set_cons_succ, map_cons, sum_cons]
      omega

variable {trim : String → String} {m m' : Meter}

def Meter.Awaits (m : Meter) : Prop :=
  ∀ k, m.report = .waiting k → ∃ heartbeat, m.heartbeats[k]? = some heartbeat ∧
    heartbeat.restored = false

theorem committed_step (hawaits : m.Awaits) (hcareful : m.careful a = true)
    (hstep : m.step trim a = some m') (channel : String) :
    m'.committed channel ≤ m.committed channel + total (deltas [a]) channel := by
  cases a with
  | record name bytes =>
    cases hstep
    simp only [Meter.committed, recordTransferBytes]
    by_cases hpos : 0 < bytes
    · have hpassed : total (deltas [.record name bytes]) channel =
          holds [(name, bytes)] channel := by
        rw [← total_single hpos]
        simp [deltas, hpos]
      have hadd := holds_accumulate_le m.transferBytes name bytes channel
      rw [hpassed]
      split_ifs <;> omega
    · rw [if_pos (.inl (Int64.not_lt.mp hpos))]
      simp [deltas, hpos, total]
  | report =>
    show _ ≤ _ + 0
    simp only [Meter.step] at hstep
    split at hstep
    · rename_i hreport
      split_ifs at hstep <;> cases hstep <;>
        simp only [Meter.committed, hreport, Report.owed, holds_empty] <;> omega
    · cases hstep
  | abort =>
    show _ ≤ _ + 0
    simp only [Meter.step] at hstep
    split at hstep
    · rename_i drained hreport
      cases hstep
      have hrestore := holds_restore_le m.transferBytes drained channel
      simp only [Meter.committed, hreport, Report.owed]
      omega
    · cases hstep
  | send =>
    show _ ≤ _ + 0
    simp only [Meter.step] at hstep
    split at hstep
    · rename_i drained hreport
      cases hstep
      have hnew : Heartbeat.owed channel ⟨drained, false, false⟩ =
        holds drained.entries channel := rfl
      simp only [Meter.committed, hreport, Report.owed, map_append, sum_append,
        map_singleton, sum_singleton, hnew]
      omega
    · cases hstep
  | conclude outcome =>
    show _ ≤ _ + 0
    simp only [Meter.step] at hstep
    split at hstep
    · rename_i k hreport
      obtain ⟨heartbeat, hk, rfl⟩ := map_eq_some_iff.mp hstep
      split_ifs with hrestores
      · -- The heartbeat was not recorded, so all that it holds goes back.
        obtain ⟨_, hk', hopen⟩ := hawaits k hreport
        cases hk.symm.trans hk'
        have hunrecorded : heartbeat.recorded = false := by
          simpa [Meter.careful, hrestores, hreport, hk] using hcareful
        have hset := sum_map_set (Heartbeat.owed channel) hk { heartbeat with restored := true }
        have hrestore := holds_restore_le m.transferBytes heartbeat.transferBytes channel
        rw [owed_open hunrecorded hopen, owed_restored] at hset
        simp only [Meter.committed, hreport, Report.owed]
        omega
      · simp only [Meter.committed, hreport, Report.owed]
        omega
    · cases hstep
  | handle k fails =>
    show _ ≤ _ + 0
    obtain ⟨heartbeat, hk, hstep⟩ := bind_eq_some_iff.mp hstep
    split_ifs at hstep with hrecorded
    cases hstep
    have hkept : heartbeat.restored = false := by simpa [Meter.careful, hk] using hcareful
    have hset := sum_map_set (Heartbeat.owed channel) hk { heartbeat with recorded := true }
    have hbilled := total_recordedEntries_le fails heartbeat.transferBytes.entries channel
    rw [owed_open (by simpa using hrecorded) hkept, owed_recorded] at hset
    simp only [Meter.committed, total_append]
    omega
  | restart =>
    show _ ≤ _ + 0
    cases hstep
    simp only [Meter.committed, Report.owed, holds_empty]
    omega

theorem Meter.Awaits.step (h : m.Awaits) (hstep : m.step trim a = some m') : m'.Awaits := by
  cases a with
  | record name bytes =>
    cases hstep
    exact h
  | report =>
    simp only [Meter.step] at hstep
    split at hstep
    · split_ifs at hstep <;> cases hstep <;> exact nofun
    · cases hstep
  | abort =>
    simp only [Meter.step] at hstep
    split at hstep <;> cases hstep
    exact nofun
  | send =>
    simp only [Meter.step] at hstep
    split at hstep <;> cases hstep
    rintro _ ⟨⟩
    exact ⟨_, getElem?_concat_length, rfl⟩
  | conclude outcome =>
    simp only [Meter.step] at hstep
    split at hstep
    · obtain ⟨heartbeat, -, rfl⟩ := map_eq_some_iff.mp hstep
      split_ifs <;> exact nofun
    · cases hstep
  | handle k fails =>
    obtain ⟨heartbeat, hk, hstep⟩ := bind_eq_some_iff.mp hstep
    split_ifs at hstep
    cases hstep
    intro j hj
    obtain ⟨waiting, hwaiting, hopen⟩ := h j hj
    by_cases hjk : k = j
    · subst hjk
      cases hk.symm.trans hwaiting
      exact ⟨_, getElem?_set_self (List.getElem?_eq_some_iff.mp hk).1, hopen⟩
    · exact ⟨waiting, (getElem?_set_ne hjk).trans hwaiting, hopen⟩
  | restart =>
    cases hstep
    exact nofun

theorem deltas_cons (a : Action) (rest : List Action) : deltas (a :: rest) =
    deltas [a] ++ deltas rest := by
  rw [← singleton_append, deltas, filterMap_append, deltas, deltas]

/-- In every run in which no heartbeat that the reporter takes for failed is recorded, no channel
has more recorded than was passed to the reporter. -/
theorem transfer_metered_at_most_once {actions : List Action} {m : Meter}
    (hcareful : Meets (Meter.step trim) (fun m a => m.careful a = true) .initial actions)
    (hrun : exec (Meter.step trim) .initial actions = some m) (channel : String) :
    total m.usage channel ≤ total (deltas actions) channel := by
  have hgrow : ∀ {m₀ : Meter}, m₀.Awaits →
      Meets (Meter.step trim) (fun m a => m.careful a = true) m₀ actions →
      exec (Meter.step trim) m₀ actions = some m →
      m.committed channel ≤ m₀.committed channel + total (deltas actions) channel := by
    clear hcareful hrun
    induction actions with
    | nil =>
      intro m₀ _ _ hrun
      cases hrun
      simp [deltas, total]
    | cons a rest ih =>
      intro m₀ hawaits hcareful hrun
      obtain ⟨m₁, hstep, hrest⟩ := exec_cons.mp hrun
      have hfirst := committed_step hawaits hcareful.1 hstep channel
      have hlater := ih (hawaits.step hstep) (hcareful.2 m₁ hstep) hrest
      rw [deltas_cons, total_append]
      omega
  have hbound := hgrow (show Meter.initial.Awaits from nofun) hcareful hrun
  have hinitial : Meter.initial.committed channel = 0 := rfl
  rw [hinitial, Meter.committed] at hbound
  omega

def refusedOnce : List Action :=
  [.record "peer" 64, .report, .send, .handle 0 (fun _ => false), .conclude (.answered 200 false),
    .record "peer" 36, .report, .send, .conclude (.answered 401 false), .report, .send,
    .handle 2 (fun _ => false), .conclude (.answered 200 false)]

def responseLost : List Action :=
  [.record "peer" 64, .report, .send, .handle 0 (fun _ => false), .conclude .failed, .report,
    .send, .handle 1 (fun _ => false), .conclude (.answered 200 false)]

theorem transfer_metered_at_most_once_sample : ∃ m,
    exec (Meter.step id) .initial refusedOnce = some m ∧ total m.usage "peer" = 100 ∧
      total m.usage "peer" ≤ total (deltas refusedOnce) "peer" := by
  exact exists_some_and (by decide) fun _ hrun _ =>
    transfer_metered_at_most_once (by decide) hrun "peer"

theorem lost_response_metered_twice : ∃ m,
    exec (Meter.step id) .initial responseLost = some m ∧ total (deltas responseLost) "peer" = 64 ∧
      total m.usage "peer" = 128 := by
  decide

end Shiftgate.Usage
