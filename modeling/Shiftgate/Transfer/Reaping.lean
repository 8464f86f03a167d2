import Shiftgate.Transfer.Session
import Shiftgate.Library.Runs

/-! `ReapExpired` on the whole session store, from `internal/transfer/session.go`, as it is run when
the store is opened, when the server is made and on every reservation. -/

namespace Shiftgate.Transfer.Reaping

open Library List

structure Incoming where
  id : String
  updatedAt : Nat
  session : Session
  deriving DecidableEq

def Incoming.fail (now : Nat) (r : Incoming) : Incoming :=
  { r with
    updatedAt := now
    session := { r.session with state := .failed, failureReason := expiredReason } }

structure Reaped where
  records : List Incoming
  reaped : Nat := 0
  restored : List Incoming := []

/-- The loop of `ReapExpired`, in the order of the ids. A record is replaced in place; `fails` says
whose write fails. -/
def reapLoop (now : Nat) (fails : String → Bool) : List Incoming → Reaped
  | [] => { records := [] }
  | r :: rest =>
    let later := reapLoop now fails rest
    if sessionExpired r.session now = false then { later with records := r :: later.records }
    else if fails r.id then { later with records := r :: later.records }
    else
      { records := r.fail now :: later.records
        reaped := later.reaped + 1
        restored :=
          if r.session.restoreID.isSome then r.fail now :: later.restored else later.restored }

structure Sessions where
  records : List Incoming
  handler : Bool := false
  handed : List String := []

def Sessions.reapExpired (s : Sessions) (now : Nat) (fails : String → Bool) : Sessions × Nat :=
  let loop := reapLoop now fails s.records
  ({ s with
      records := loop.records
      handed := if s.handler then s.handed ++ loop.restored.map (·.id) else s.handed },
    loop.reaped)

inductive Sweep where
  | openSessions (now : Nat) (fails : String → Bool)
  | setReapRestoreHandler
  | reapExpired (now : Nat) (fails : String → Bool)

def Sessions.sweep (s : Sessions) : Sweep → Option Sessions
  | .openSessions now fails => some ({ s with handler := false }.reapExpired now fails).1
  | .setReapRestoreHandler => some { s with handler := true }
  | .reapExpired now fails => some (s.reapExpired now fails).1

/-- The reap finds no session marked before, its writes succeed, and there is a handler for the
restores. -/
def Incoming.Unmarked (now : Nat) (fails : String → Bool) (handler : Bool) (r : Incoming) : Prop :=
  sessionExpired r.session now → r.session.state ≠ .failed ∧ fails r.id = false ∧
    (handler ∨ r.session.restoreID = none)

def Sessions.Unmarked (s : Sessions) : Sweep → Prop
  | .openSessions now fails => ∀ r ∈ s.records, r.Unmarked now fails false
  | .setReapRestoreHandler => True
  | .reapExpired now fails => ∀ r ∈ s.records, r.Unmarked now fails s.handler

instance (now : Nat) (fails : String → Bool) (handler : Bool) (r : Incoming) :
    Decidable (r.Unmarked now fails handler) := inferInstanceAs (Decidable (_ → _))

instance (s : Sessions) : ∀ move, Decidable (s.Unmarked move)
  | .openSessions now fails =>
    inferInstanceAs (Decidable (∀ r ∈ s.records, r.Unmarked now fails false))
  | .setReapRestoreHandler => isTrue trivial
  | .reapExpired now fails =>
    inferInstanceAs (Decidable (∀ r ∈ s.records, r.Unmarked now fails s.handler))

structure Settles (now : Nat) (records : List Incoming) (result : Reaped) : Prop where
  failed : ∀ r ∈ records, sessionExpired r.session now → r.session.state.terminal = false →
    ∃ r' ∈ result.records, r'.id = r.id ∧ r'.session.state = .failed
  terminal : ∀ r ∈ records, r.session.state.terminal → r ∈ result.records
  again : (∀ r ∈ records, sessionExpired r.session now → r.session.state.terminal) →
    result = { records }

def Sessions.Settles (s : Sessions) : Sweep → Prop
  | .openSessions now fails | .reapExpired now fails =>
    Reaping.Settles now s.records (reapLoop now fails s.records)
  | .setReapRestoreHandler => True

def Handed (handed : List String) (r r' : Incoming) : Prop :=
  r' = r ∧ handed.count r.id = 0 ∨
    r.session.state.terminal = false ∧ r'.id = r.id ∧ r'.session.state = .failed ∧
      r'.session.restoreID = r.session.restoreID ∧
      handed.count r.id = if r.session.restoreID.isSome then 1 else 0

structure Traced (records : List Incoming) (s : Sessions) : Prop where
  unique : (records.map (·.id)).Nodup
  ids : s.records.map (·.id) = records.map (·.id)
  handed : ∀ r' ∈ s.records, ∃ r ∈ records, Handed s.handed r r'

variable {now : Nat} {fails : String → Bool} {handler : Bool} {records : List Incoming}
  {r : Incoming} {s s' : Sessions}

theorem terminal_of_expired (h : sessionExpired r.session now = true) :
    r.session.state.terminal = decide (r.session.state = .failed) := by
  unfold sessionExpired at h
  cases hstate : r.session.state <;> simp_all [SessionState.terminal]

theorem reapLoop_eq (h : ∀ r ∈ records, sessionExpired r.session now → fails r.id = false) :
    reapLoop now fails records =
      { records := records.map fun r => if sessionExpired r.session now then r.fail now else r
        reaped := records.countP fun r => sessionExpired r.session now
        restored := (records.filter fun r =>
          sessionExpired r.session now && r.session.restoreID.isSome).map (·.fail now) } := by
  induction records with
  | nil => rfl
  | cons r rest ih =>
    have hrest := ih fun r' hr' => h r' (mem_cons_of_mem _ hr')
    cases hexpired : sessionExpired r.session now with
    | false => simp [reapLoop, hrest, hexpired]
    | true =>
      have hwrite := h r (by simp) hexpired
      cases hrestore : r.session.restoreID <;> simp [reapLoop, hrest, hexpired, hwrite, hrestore]

theorem settles (h : ∀ r ∈ records, r.Unmarked now fails handler) :
    Settles now records (reapLoop now fails records) := by
  rw [reapLoop_eq fun r hr hexpired => (h r hr hexpired).2.1]
  have hlive : ∀ r ∈ records, sessionExpired r.session now → r.session.state.terminal = false :=
    fun r hr hexpired => by simp [terminal_of_expired hexpired, (h r hr hexpired).1]
  refine ⟨fun r hr hexpired _ => ?_, fun r hr hterminal => ?_, fun hnone => ?_⟩
  · exact ⟨r.fail now, mem_map.mpr ⟨r, hr, by simp [hexpired]⟩, rfl, rfl⟩
  · refine mem_map.mpr ⟨r, hr, if_neg fun hexpired => ?_⟩
    rw [hlive r hr hexpired] at hterminal
    cases hterminal
  · have hidle : ∀ r ∈ records, sessionExpired r.session now = false := by
      intro r hr
      rw [Bool.eq_false_iff]
      intro hexpired
      have := hnone r hr hexpired
      rw [hlive r hr hexpired] at this
      cases this
    congr 1
    · exact (map_congr_left fun r hr => by simp [hidle r hr]).trans (map_id _)
    · exact countP_eq_zero.mpr fun r hr => by simp [hidle r hr]
    · simp +contextual [filter_eq_nil_iff, hidle]

theorem count_handed (hunique : (s.records.map (·.id)).Nodup)
    (hcond : ∀ r ∈ s.records, r.Unmarked now fails s.handler) (hr : r ∈ s.records) :
    (s.reapExpired now fails).1.handed.count r.id = s.handed.count r.id +
      if sessionExpired r.session now && r.session.restoreID.isSome then 1 else 0 := by
  simp only [Sessions.reapExpired, reapLoop_eq fun r hr hexpired => (hcond r hr hexpired).2.1]
  cases hhandler : s.handler with
  | false =>
    have hnone : sessionExpired r.session now → r.session.restoreID = none := fun hexpired => by
      simpa [hhandler] using (hcond r hr hexpired).2.2
    cases hexpired : sessionExpired r.session now <;> simp [hexpired, hnone]
  | true =>
    rw [if_pos rfl, count_append, map_map,
      show (·.id) ∘ Incoming.fail now = (·.id) from rfl,
      Nodup.count (hunique.sublist (filter_sublist.map _))]
    congr 2
    simp only [mem_map, mem_filter, eq_iff_iff]
    constructor
    · rintro ⟨r', ⟨hr', hp⟩, hid⟩
      rwa [← inj_on_of_nodup_map hunique hr' hr hid]
    · exact fun hp => ⟨r, ⟨hr, hp⟩, rfl⟩

theorem Traced.reap (h : Traced records s)
    (hcond : ∀ r ∈ s.records, r.Unmarked now fails s.handler) :
    Traced records (s.reapExpired now fails).1 := by
  have hrecords : (s.reapExpired now fails).1.records =
      s.records.map fun r => if sessionExpired r.session now then r.fail now else r := by
    simp only [Sessions.reapExpired, reapLoop_eq fun r hr hexpired => (hcond r hr hexpired).2.1]
  refine ⟨h.unique, ?_, fun r'' hr'' => ?_⟩
  · rw [hrecords, ← h.ids, map_map]
    refine map_congr_left fun r _ => ?_
    cases hexpired : sessionExpired r.session now <;> simp [hexpired, Incoming.fail]
  · rw [hrecords] at hr''
    obtain ⟨r', hr', rfl⟩ := mem_map.mp hr''
    obtain ⟨r, hr, hhanded⟩ := h.handed r' hr'
    have hcount := count_handed (h.ids ▸ h.unique) hcond hr'
    refine ⟨r, hr, ?_⟩
    cases hexpired : sessionExpired r'.session now with
    | false =>
      rcases hhanded with ⟨rfl, hzero⟩ | ⟨hlive, hid, hfailed, hrestore, hone⟩
      · exact .inl ⟨rfl, by simp [hcount, hzero, hexpired]⟩
      · refine .inr ⟨hlive, hid, hfailed, hrestore, ?_⟩
        rw [← hid, hcount, hid, hone]
        simp [hexpired]
    | true =>
      have hstate := (hcond r' hr' hexpired).1
      rcases hhanded with ⟨rfl, hzero⟩ | ⟨-, -, hfailed, -⟩
      · exact .inr ⟨by simp [terminal_of_expired hexpired, hstate], rfl, rfl, rfl,
          by simp [hcount, hzero, hexpired]⟩
      · exact absurd hfailed hstate

theorem Traced.sweep {move : Sweep} (h : Traced records s) (hcond : s.Unmarked move)
    (hstep : s.sweep move = some s') : Traced records s' := by
  cases move with
  | setReapRestoreHandler =>
    cases hstep
    exact ⟨h.unique, h.ids, h.handed⟩
  | openSessions now fails =>
    cases hstep
    exact Traced.reap (s := { s with handler := false }) ⟨h.unique, h.ids, h.handed⟩ hcond
  | reapExpired now fails =>
    cases hstep
    exact h.reap hcond

namespace Sample

def restored : Incoming :=
  ⟨"a", 0, ⟨"m", "w", "c", 1, .restored, 1, 0, 0, some 0, "", "", 0, "", 5, ""⟩⟩

def broken : Incoming :=
  ⟨"b", 0, ⟨"m", "v", "", 0, .failed, 1, 0, 0, none, "", "", 0, "", 5, "verification failed"⟩⟩

def boot : List Sweep :=
  [.openSessions 4 fun _ => false, .setReapRestoreHandler, .reapExpired 5 fun _ => false,
    .reapExpired 6 fun _ => false]

end Sample

end Shiftgate.Transfer.Reaping
