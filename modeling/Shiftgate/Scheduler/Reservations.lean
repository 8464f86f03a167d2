import Shiftgate.Library.Runs
import Shiftgate.Scheduler.Offer

/-! The reservations on one offer (`internal/scheduler/reservation.go`,
`internal/database/compute.go`, `createComputeReservation`). Creations hold the lock on the offer's
row, so each is one step. -/

namespace Shiftgate.Scheduler

open Library List

inductive ReservationState where
  | pending
  | active
  | released
  | expired
  | failed

def canTransitionReservation : ReservationState → ReservationState → Bool
  | .pending, .active | .pending, .released | .pending, .expired | .pending, .failed => true
  | .active, .released | .active, .expired | .active, .failed => true
  | .failed, .released => true
  | _, _ => false

def ReservationState.terminal : ReservationState → Bool
  | .released | .expired | .failed => true
  | .pending | .active => false

structure Reservation where
  requested : Resources
  state : ReservationState
  expiresAt : Nat
  createdAt : Nat

def Reservation.expired (reservation : Reservation) (now : Nat) : Bool :=
  !reservation.state.terminal && reservation.expiresAt ≤ now

def commit (now : Nat) (committed : Resources) (reservation : Reservation) : Resources :=
  if reservation.state.terminal || reservation.expired now then committed
  else {
    memoryBytes := committed.memoryBytes + reservation.requested.memoryBytes
    storageBytes := committed.storageBytes + reservation.requested.storageBytes
    gpus := committed.gpus ++ reservation.requested.gpus }

def committedFrom (reservations : List Reservation) (now : Nat) : Resources :=
  reservations.foldl (commit now) ⟨0, 0, []⟩

def expireRows (rows : List Reservation) (now : Nat) : List Reservation :=
  rows.map fun row => if row.expired now then { row with state := .expired } else row

def unsettled (rows : List Reservation) : List Reservation :=
  rows.filter fun row => !row.state.terminal

def liveRows (rows : List Reservation) : List Reservation :=
  (unsettled rows).insertionSort fun a b => a.createdAt ≤ b.createdAt

/-- `CreateComputeReservation` with its approval: the handler read the clock at `started`, the
transaction began at `began`. A refusal rolls everything back. -/
def createComputeReservation (fold : String → String) (exposed : Resources)
    (rows : List Reservation) (requested : Resources) (started began ttl : Nat) (others : Bool) :
    List Reservation :=
  let rows' := expireRows rows began
  let committed := committedFrom (liveRows rows') started
  if evaluate fold others requested (exposed.subtract fold committed) then
    rows' ++ [⟨requested, .pending, started + ttl, began⟩]
  else rows

def updateState (rows : List Reservation) (index : Nat) (next : ReservationState) :
    List Reservation :=
  match rows[index]? with
  | none => rows
  | some row =>
    if canTransitionReservation row.state next then rows.set index { row with state := next }
    else rows

structure State where
  now : Nat
  rows : List Reservation

inductive Action where
  | tick (elapsed : Nat)
  | create (requested : Resources) (started began ttl : Nat) (others : Bool)
  | update (index : Nat) (next : ReservationState)
  | expire (clock : Nat)

def initial (now : Nat) : State := ⟨now, []⟩

variable (fold : String → String) (exposed : Resources)

def step (s : State) : Action → Option State
  | .tick elapsed => some { s with now := s.now + elapsed }
  | .create requested started began ttl others =>
    if started ≤ began ∧ began ≤ s.now then
      some { s with rows :=
        createComputeReservation fold exposed s.rows requested started began ttl others }
    else none
  | .update index next => some { s with rows := updateState s.rows index next }
  | .expire clock => some { s with rows := expireRows s.rows clock }

def held (s : State) : List Reservation :=
  (unsettled s.rows).filter fun row => s.now < row.expiresAt

def requests (rows : List Reservation) : List Resources := rows.map (·.requested)

variable {row : Reservation} {now : Nat} {rows : List Reservation}

theorem expired_not_terminal (h : row.expired now = true) : row.state.terminal = false := by
  simp only [Reservation.expired, Bool.and_eq_true, Bool.not_eq_true'] at h
  exact h.1

theorem unsettled_expireRows (rows : List Reservation) (now : Nat) :
    unsettled (expireRows rows now) = (unsettled rows).filter fun row => now < row.expiresAt := by
  induction rows with
  | nil => rfl
  | cons row rest ih =>
    simp only [unsettled, expireRows, map_cons, filter_cons] at ih ⊢
    rw [ih]
    by_cases hlapsed : row.expired now = true
    · have hstate := expired_not_terminal hlapsed
      have hle : ¬ now < row.expiresAt := by
        simp only [Reservation.expired, Bool.and_eq_true, decide_eq_true_eq] at hlapsed
        omega
      have hsettled : ReservationState.expired.terminal = true := rfl
      simp [hlapsed, hstate, hsettled, hle]
    · by_cases hstate : row.state.terminal = true
      · simp [Reservation.expired, hstate]
      · have hlt : now < row.expiresAt := by
          simp only [Reservation.expired, hstate, Bool.not_false, Bool.true_and,
            decide_eq_true_eq] at hlapsed
          omega
        simp [hlapsed, hstate, hlt]

theorem requests_sublist {rows' : List Reservation} (h : rows.Sublist rows') :
    (requests rows).Sublist (requests rows') :=
  h.map _

theorem expireRows_requests (rows : List Reservation) (now : Nat) :
    (requests (unsettled (expireRows rows now))).Sublist (requests (unsettled rows)) := by
  rw [unsettled_expireRows]
  exact requests_sublist filter_sublist

theorem canTransition_terminal {state next : ReservationState}
    (h : canTransitionReservation state next = true) (hterminal : state.terminal = true) :
    next.terminal = true := by
  cases state with
  | pending | active => cases hterminal
  | released | expired => cases next <;> cases h
  | failed => cases next <;> first | rfl | cases h

theorem requests_set {index : Nat} {next : ReservationState} (hrow : rows[index]? = some row)
    (hnext : row.state.terminal = true → next.terminal = true) :
    (requests (unsettled (rows.set index { row with state := next }))).Sublist
      (requests (unsettled rows)) := by
  induction rows generalizing index with
  | nil => simp at hrow
  | cons head rest ih =>
    cases index with
    | zero =>
      obtain rfl : head = row := by simpa using hrow
      simp only [set_cons_zero, unsettled, filter_cons, requests]
      by_cases hstate : head.state.terminal = true
      · simp [hstate, hnext hstate]
      · cases next.terminal <;> simp [hstate]
    | succ index =>
      have hrest := @ih index (by simpa using hrow)
      simp only [set_cons_succ, unsettled, filter_cons, requests] at hrest ⊢
      split
      · simpa using hrest
      · exact hrest

theorem updateState_requests (rows : List Reservation) (index : Nat) (next : ReservationState) :
    (requests (unsettled (updateState rows index next))).Sublist (requests (unsettled rows)) := by
  unfold updateState
  split
  · exact List.Sublist.refl _
  · rename_i row hrow
    split
    · rename_i hnext
      exact requests_set hrow (canTransition_terminal hnext)
    · exact List.Sublist.refl _

/-- A step takes requests off the unsettled ones, or creates one that was approved on what they
leave. -/
inductive Effect (s : State) (a : Action) (t : State) : Prop
  | fewer : (requests (unsettled t.rows)).Sublist (requests (unsettled s.rows)) → Effect s a t
  | created (requested : Resources) (started began ttl : Nat) (others : Bool) :
      a = .create requested started began ttl others → started ≤ began →
      evaluate fold others requested (exposed.subtract fold
        (committedFrom (liveRows (expireRows s.rows began)) started)) = true →
      t.rows = expireRows s.rows began ++ [⟨requested, .pending, started + ttl, began⟩] →
      Effect s a t

theorem step_effect {s t : State} {a : Action} (h : step fold exposed s a = some t) :
    Effect fold exposed s a t := by
  cases a with
  | tick elapsed =>
    cases h
    exact .fewer (List.Sublist.refl _)
  | create requested started began ttl others =>
    simp only [step] at h
    split at h
    · rename_i hclock
      cases h
      by_cases haccept : evaluate fold others requested (exposed.subtract fold
          (committedFrom (liveRows (expireRows s.rows began)) started)) = true
      · refine .created requested started began ttl others rfl hclock.1 haccept ?_
        simp [createComputeReservation, haccept]
      · refine .fewer ?_
        simp [createComputeReservation, haccept]
    · cases h
  | update index next =>
    cases h
    exact .fewer (updateState_requests s.rows index next)
  | expire clock =>
    cases h
    exact .fewer (expireRows_requests s.rows clock)

def memorySum (requested : List Resources) : Nat := (requested.map (·.memoryBytes.toNat)).sum

def storageSum (requested : List Resources) : Nat := (requested.map (·.storageBytes.toNat)).sum

def devices (requested : List Resources) : List GPUDevice := requested.flatMap (·.gpus)

section

variable (hlive : ∀ row ∈ rows, row.state.terminal = false ∧ now < row.expiresAt)

include hlive

theorem foldl_commit (start : Resources)
    (hmemory : start.memoryBytes.toNat + memorySum (requests rows) < 2 ^ 64)
    (hstorage : start.storageBytes.toNat + storageSum (requests rows) < 2 ^ 64) :
    (rows.foldl (commit now) start).memoryBytes.toNat =
        start.memoryBytes.toNat + memorySum (requests rows) ∧
      (rows.foldl (commit now) start).storageBytes.toNat =
        start.storageBytes.toNat + storageSum (requests rows) ∧
      (rows.foldl (commit now) start).gpus = start.gpus ++ devices (requests rows) := by
  induction rows generalizing start with
  | nil => simp [memorySum, storageSum, devices, requests]
  | cons row rest ih =>
    obtain ⟨hstate, hexpires⟩ := hlive row (by simp)
    have hcounted : (row.state.terminal || row.expired now) = false := by
      simp [Reservation.expired, hstate, hexpires]
    simp only [requests, memorySum, storageSum, devices, map_cons, sum_cons,
      flatMap_cons] at ih hmemory hstorage ⊢
    have hm : (start.memoryBytes + row.requested.memoryBytes).toNat =
        start.memoryBytes.toNat + row.requested.memoryBytes.toNat := by
      rw [UInt64.toNat_add, Nat.mod_eq_of_lt (by omega)]
    have hs : (start.storageBytes + row.requested.storageBytes).toNat =
        start.storageBytes.toNat + row.requested.storageBytes.toNat := by
      rw [UInt64.toNat_add, Nat.mod_eq_of_lt (by omega)]
    have hstep : commit now start row = ⟨start.memoryBytes + row.requested.memoryBytes,
        start.storageBytes + row.requested.storageBytes, start.gpus ++ row.requested.gpus⟩ := by
      simp [commit, hcounted]
    rw [foldl_cons, hstep]
    obtain ⟨h1, h2, h3⟩ := ih (fun r hr => hlive r (by simp [hr]))
      ⟨start.memoryBytes + row.requested.memoryBytes,
        start.storageBytes + row.requested.storageBytes, start.gpus ++ row.requested.gpus⟩
      (by simp only [hm]; omega) (by simp only [hs]; omega)
    refine ⟨?_, ?_, ?_⟩
    · rw [h1, hm, Nat.add_assoc]
    · rw [h2, hs, Nat.add_assoc]
    · rw [h3, append_assoc]

theorem committedFrom_spec (hmemory : memorySum (requests rows) < 2 ^ 64)
    (hstorage : storageSum (requests rows) < 2 ^ 64) :
    (committedFrom rows now).memoryBytes.toNat = memorySum (requests rows) ∧
      (committedFrom rows now).storageBytes.toNat = storageSum (requests rows) ∧
      (committedFrom rows now).gpus = devices (requests rows) := by
  have h := foldl_commit hlive ⟨0, 0, []⟩ (by simpa using hmemory)
    (by simpa using hstorage)
  simpa [committedFrom] using h

end

end Shiftgate.Scheduler
