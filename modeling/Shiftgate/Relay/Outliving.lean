import Shiftgate.Relay.Settlement

/-! Whether a relay ticket outlives its migration. A finisher that expires the tickets after it has
written the terminal status leaves none; a finisher that does not must find none, and no ticket may
be inserted once the row is terminal. -/

namespace Shiftgate.Relay.Settlement

open Library Jobs Jobs.System Option Settlement.System

variable {c : Config} {s t : System} {i : Nat} {tickets tickets' : Tickets} {task task' : Task}

def NoneIssued (c : Config) (tickets : Tickets) : Prop :=
  ∀ nonce, ∀ ticket ∈ tickets nonce, ticket.migrationID = c.migrationID → ticket.state ≠ .issued

def Claimable (c : Config) (s : System) : Prop :=
  ∃ (claims : TicketClaims) (token machine relayID : String),
    claims.migrationID = c.migrationID ∧
    (claimRow s.tickets claims (c.tokenHash token) machine relayID s.now).isSome = true

variable {tokenHash nonce : String} {now : Nat} {ok : Bool} {point : Point}

variable {relayID : String} {next : Point}

theorem Ticket.claim_migration {ticket ticket' : Ticket} {claims : TicketClaims} {leg : Leg}
    (h : ticket.claim claims tokenHash leg relayID now = some ticket') :
    ticket.state = .issued ∧ ticket.migrationID = claims.migrationID ∧
      ticket'.migrationID = ticket.migrationID := by
  unfold Ticket.claim at h
  split_ifs at h with hchecks
  cases h
  obtain ⟨hissued, -, -, hmigration, -⟩ := hchecks
  exact ⟨hissued, hmigration, by cases leg <;> rfl⟩

theorem NoneIssued.not_claimable (h : NoneIssued c s.tickets) : ¬ Claimable c s := by
  rintro ⟨claims, token, machine, relayID, hmigration, hclaim⟩
  obtain ⟨after, hafter⟩ := isSome_iff_exists.mp hclaim
  simp only [claimRow, bind_eq_bind, bind_eq_some_iff] at hafter
  obtain ⟨ticket, hticket, claimed, hclaimed, -⟩ := hafter
  obtain ⟨hissued, hsame, -⟩ := Ticket.claim_migration hclaimed
  exact h claims.nonce ticket hticket (hsame.trans hmigration) hissued

theorem NoneIssued.put {old ticket : Ticket} (h : NoneIssued c tickets)
    (hold : tickets nonce = some old) (hmigration : ticket.migrationID = old.migrationID)
    (hissued : ticket.state = .issued → old.state = .issued) :
    NoneIssued c (tickets.put nonce ticket) := by
  intro other found hfound hof
  by_cases hsame : other = nonce
  · subst hsame
    rw [Tickets.put_same] at hfound
    cases hfound
    exact fun hstate => h other old hold (hmigration ▸ hof) (hissued hstate)
  · rw [Tickets.put_other hsame] at hfound
    exact h other found hfound hof

theorem NoneIssued.claimRow {claims : TicketClaims} {machine : String} (h : NoneIssued c tickets)
    (hclaim : Relay.claimRow tickets claims tokenHash machine relayID now = some tickets') :
    NoneIssued c tickets' := by
  simp only [Relay.claimRow, bind_eq_bind, bind_eq_some_iff] at hclaim
  obtain ⟨ticket, hticket, claimed, hclaimed, heq⟩ := hclaim
  cases heq
  obtain ⟨hissued, -, hsame⟩ := Ticket.claim_migration hclaimed
  exact h.put hticket hsame fun _ => hissued

theorem NoneIssued.consumeRow (h : NoneIssued c tickets)
    (hconsume : Relay.consumeRow tickets nonce tokenHash relayID now = some tickets') :
    NoneIssued c tickets' := by
  simp only [Relay.consumeRow, bind_eq_bind, bind_eq_some_iff] at hconsume
  obtain ⟨ticket, hticket, hconsume⟩ := hconsume
  split_ifs at hconsume
  cases hconsume
  exact h.put hticket rfl nofun

theorem NoneIssued.expire {p : Ticket → Bool} (h : NoneIssued c tickets) :
    NoneIssued c (expireTickets tickets p) := by
  intro nonce ticket hticket hmigration
  obtain ⟨old, hold, rfl⟩ := Option.mem_map.mp hticket
  split_ifs at hmigration ⊢
  · exact nofun
  · exact h nonce old hold hmigration

theorem noneIssued_revoked :
    NoneIssued c (revokeRelayTicketsForMigration tickets c.migrationID) := by
  intro nonce ticket hticket hmigration
  obtain ⟨old, hold, rfl⟩ := Option.mem_map.mp hticket
  split_ifs at hmigration ⊢ with hexpires
  · exact nofun
  · exact fun hissued => hexpires ⟨decide_eq_true hmigration, hissued⟩

theorem NoneIssued.revoke (h : NoneIssued c s.tickets) : NoneIssued c (s.revoke c ok).tickets := by
  cases ok with
  | true => exact h.expire
  | false => exact h

/-- A terminal status without a revocation needs that no ticket is issued, and an active one does
not come after a terminal one. -/
def Permitted (c : Config) (s : System) (status : JobStatus) : Prop :=
  if status.active then s.row.status.active = true else NoneIssued c s.tickets

/-- A ticket is inserted only while the row is active, a finisher that does not revoke finds no
issued ticket, and the revocation after a terminal status does not fail. -/
def Orderly (c : Config) (s : System) : Action → Prop
  | .advance i _ ok =>
    match s.tasks[i]? with
    | some (.handler (.insert ..)) => s.row.status.active = true
    | some (.handler (.write settlement)) => Permitted c s settlement.status
    | some (.handler (.finish settlement)) =>
      settlement.status.active = true → s.row.status.active = true
    | some (.handler .reconcile) => ok = true ∨ NoneIssued c s.tickets
    | _ => True
  | .work _ write _ _ => Permitted c s write.status
  | .tick _ | .claim _ | .issue .. | .setup | .poll | .dispatch | .cancel | .answer .. |
    .claimLeg .. | .consume .. | .revokeExpired => True

/-- The row is terminal, and the call that made it so has returned. -/
def Settled (s : System) : Prop :=
  s.row.status.active = false ∧
    ∃ i, s.settler = some i ∧ ∃ task ∈ s.tasks[i]?, task.hasReturned = true

def StillRevoking (s t : System) : Prop :=
  ∀ i : Nat, s.tasks[i]? = some (.handler .reconcile) → t.tasks[i]? = some (.handler .reconcile)

inductive Effect (c : Config) (s t : System) : Prop where
  | quiet (hstatus : t.row.status = s.row.status)
      (htickets : NoneIssued c s.tickets → NoneIssued c t.tickets)
      (hsettler : t.settler = s.settler) (htasks : StillRevoking s t)
  | active (hbefore : s.row.status.active = true) (hafter : t.row.status.active = true)
  | cleared (hnone : NoneIssued c t.tickets)
      (hrow : s.row.status.active = false → t.row.status.active = false)
  | finished (i : Nat) (hrow : t.row.status.active = false) (htickets : t.tickets = s.tickets)
      (hsettler : t.settler = some i) (htask : t.tasks[i]? = some (.handler .reconcile))

theorem stillRevoking_set (hi : s.tasks[i]? = some task) (hne : task ≠ .handler .reconcile)
    (htasks : t.tasks = s.tasks.set i task') : StillRevoking s t := by
  intro j hj
  have hij : i ≠ j := by
    rintro rfl
    cases hi.symm.trans hj
    exact hne rfl
  rw [htasks, List.getElem?_set_ne hij, hj]

theorem stillRevoking_append {more : List Task} (htasks : t.tasks = s.tasks ++ more) :
    StillRevoking s t := by
  intro j hj
  rw [htasks, List.getElem?_append_left (List.getElem?_eq_some_iff.mp hj).1, hj]

theorem Effect.goTo (hi : s.tasks[i]? = some (.handler point)) (hne : point ≠ .reconcile) :
    Effect c s (s.goTo i next) :=
  .quiet rfl id rfl (stillRevoking_set hi (fun h => hne (Task.handler.inj h)) rfl)

theorem Effect.spawn : Effect c s (s.spawn task) :=
  .quiet rfl id rfl (stillRevoking_append rfl)

theorem Effect.permitted {status : JobStatus} (h : Permitted c s status)
    (hrow : t.row.status = status) (htickets : t.tickets = s.tickets) : Effect c s t := by
  unfold Permitted at h
  split_ifs at h with hactive
  · exact .active h (hrow ▸ hactive)
  · refine .cleared (htickets ▸ h) fun _ => ?_
    rw [hrow]
    exact Bool.not_eq_true _ |>.mp hactive

theorem requestManagedMigrationCancel_status {row : JobRow} :
    (if ok then (requestManagedMigrationCancel row).getD row else row).status = row.status := by
  split_ifs
  · cases h : requestManagedMigrationCancel row with
    | none => rfl
    | some row' => rw [requestManagedMigrationCancel_ok h]; rfl
  · rfl

theorem advance_effect (hi : s.tasks[i]? = some (.handler point))
    (hcond : Orderly c s (.advance i nonce ok)) (hstep : s.advance c i nonce ok point = some t) :
    Effect c s t := by
  have hlt : i < s.tasks.length := (List.getElem?_eq_some_iff.mp hi).1
  cases point with
  | issue source destination ttl setup =>
    simp only [advance] at hstep
    split at hstep <;> cases hstep <;> exact .goTo hi nofun
  | insert claims setup =>
    simp only [Orderly, hi] at hcond
    simp only [advance] at hstep
    split at hstep
    · cases hstep
      exact .active hcond hcond
    · cases hstep
      exact .goTo hi nofun
  | arm | poll | cancel =>
    cases hstep
    exact .goTo hi nofun
  | revokeFirst =>
    cases hstep
    exact .quiet rfl NoneIssued.revoke rfl (stillRevoking_set hi nofun rfl)
  | request =>
    cases hstep
    exact .quiet requestManagedMigrationCancel_status id rfl (stillRevoking_set hi nofun rfl)
  | write settlement =>
    simp only [Orderly, hi] at hcond
    cases hstep
    cases ok with
    | true => exact .permitted hcond rfl rfl
    | false => exact .goTo hi nofun
  | finish settlement =>
    simp only [Orderly, hi] at hcond
    cases hstep
    cases ok with
    | false => exact .goTo hi nofun
    | true =>
      cases hactive : settlement.status.active with
      | true => exact .active (hcond hactive) hactive
      | false =>
        refine .finished i hactive rfl ?_ (List.getElem?_set_self hlt)
        show (if settlement.status.active then none else some i) = some i
        simp [hactive]
  | reconcile =>
    simp only [Orderly, hi] at hcond
    cases hstep
    refine .cleared ?_ fun h => h
    obtain rfl | hnone := hcond
    · exact noneIssued_revoked
    · exact hnone.revoke
  | polled job | pollCancel | dispatch | cancelCall | returned => cases hstep

theorem Write.apply_status {write : Write} {w : Worker} {row row' : JobRow}
    (h : write.apply w row now = some row') : row'.status = write.status := by
  cases write <;> exact (updateManagedMigration_ok h).status_eq

theorem answered_waiting {reply : Reply} (h : point.answered reply now = some next) :
    point ≠ .reconcile := by
  rintro rfl
  cases h

theorem step_effect {a : Action} (hcond : Orderly c s a) (hstep : s.step c a = some t) :
    Effect c s t := by
  cases a with
  | tick seconds =>
    cases hstep
    exact .quiet rfl id rfl fun _ h => h
  | claim owner =>
    obtain ⟨row, hclaim, rfl⟩ := map_eq_some_iff.mp hstep
    obtain ⟨-, -, hactive, rfl⟩ := claimNextManagedMigration_ok hclaim
    exact .active hactive rfl
  | issue source destination ttl | poll | cancel =>
    cases hstep
    exact .spawn
  | setup | dispatch =>
    simp only [System.step] at hstep
    split_ifs at hstep
    cases hstep
    exact .spawn
  | advance i nonce ok =>
    simp only [System.step] at hstep
    split at hstep
    · exact advance_effect ‹_› hcond hstep
    · cases hstep
    · cases hstep
  | answer i reply =>
    simp only [System.step] at hstep
    split at hstep
    · obtain ⟨next, hnext, rfl⟩ := map_eq_some_iff.mp hstep
      exact .goTo ‹_› (answered_waiting hnext)
    · cases hstep
    · cases hstep
  | work i write result ok =>
    simp only [System.step] at hstep
    split at hstep
    · rename_i w hi
      split_ifs at hstep
      cases hstep
      unfold System.work
      split
      · rename_i row hrow
        have happly : write.apply { w with result } s.row s.now = some row := by
          split_ifs at hrow
          exact hrow
        exact .permitted hcond (Write.apply_status happly) rfl
      · exact .quiet rfl id rfl (stillRevoking_set hi nofun rfl)
    · cases hstep
    · cases hstep
  | claimLeg claims token machine relayID =>
    obtain ⟨tickets, hclaim, rfl⟩ := map_eq_some_iff.mp hstep
    exact .quiet rfl (·.claimRow hclaim) rfl fun _ h => h
  | consume nonce token relayID =>
    obtain ⟨tickets, hconsume, rfl⟩ := map_eq_some_iff.mp hstep
    exact .quiet rfl (·.consumeRow hconsume) rfl fun _ h => h
  | revokeExpired =>
    cases hstep
    exact .quiet rfl NoneIssued.expire rfl fun _ h => h

def Guarded (c : Config) (s : System) : Prop :=
  s.row.status.active = false → NoneIssued c s.tickets ∨
    ∃ i, s.settler = some i ∧ s.tasks[i]? = some (.handler .reconcile)

structure Closed (c : Config) (s : System) : Prop where
  terminal : s.row.status.active = false
  none : NoneIssued c s.tickets

theorem Guarded.effect (h : Guarded c s) (he : Effect c s t) : Guarded c t := by
  intro hterminal
  cases he with
  | quiet hstatus htickets hsettler htasks =>
    rw [hstatus] at hterminal
    obtain hnone | ⟨i, hi, htask⟩ := h hterminal
    · exact .inl (htickets hnone)
    · exact .inr ⟨i, hsettler.trans hi, htasks i htask⟩
  | active hbefore hafter =>
    rw [hafter] at hterminal
    cases hterminal
  | cleared hnone hrow => exact .inl hnone
  | finished i hrow htickets hsettler htask => exact .inr ⟨i, hsettler, htask⟩

theorem Closed.effect (h : Closed c s) (he : Effect c s t) : Closed c t := by
  cases he with
  | quiet hstatus htickets hsettler htasks => exact ⟨hstatus ▸ h.terminal, htickets h.none⟩
  | active hbefore hafter =>
    rw [h.terminal] at hbefore
    cases hbefore
  | cleared hnone hrow => exact ⟨hrow h.terminal, hnone⟩
  | finished i hrow htickets hsettler htask => exact ⟨hrow, htickets ▸ h.none⟩

theorem Guarded.closed (h : Guarded c s) (hs : Settled s) : Closed c s := by
  obtain ⟨hterminal, i, hi, task, htask, hreturned⟩ := hs
  refine ⟨hterminal, (h hterminal).resolve_right ?_⟩
  rintro ⟨j, hj, hrevoking⟩
  cases hi.symm.trans hj
  cases htask.symm.trans hrevoking
  cases hreturned

namespace Traces

def config : Config :=
  { organizationID := "org", migrationID := "m", sourceMachineID := "src",
    destinationMachineID := "dst", relayConfigured := true, strongKey := true,
    relayEndpoint := "relay", sign := (·.nonce), tokenHash := id }

def claims : TicketClaims := ⟨"org", "src", "dst", "m", "n", 120, "", "relay"⟩

def moving : AgentMigration := ⟨"a", .created, ""⟩

def completed : AgentMigration := ⟨"a", .completed, ""⟩

def issuing (i : Nat) : List Action :=
  [.issue "src" "dst" 0, .advance i "n" true, .advance i "n" true]

def pass (i : Nat) (seen : AgentMigration) : List Action :=
  [.poll, .advance i "" true, .answer i (.migration seen)]

/-- A run that settles the migration, and one that goes on from there. -/
abbrev Trace := List Action × List Action

def managedFinish : Trace :=
  (issuing 0 ++ [.claim "w", .work 1 .assign (some moving) true,
    .work 1 (.finish .completed (some completed) "") (some completed) true], [])

def cancelHandler : Trace :=
  (issuing 0 ++ pass 1 moving ++ [.advance 1 "" true] ++
    [.cancel, .advance 2 "" true, .answer 2 .accepted, .advance 2 "" true], [])

def dispatched : Trace :=
  ([.dispatch] ++ issuing 1 ++ [.answer 0 (.migration completed), .advance 0 "" true], [])

def insertedLate : Trace :=
  ([.issue "src" "dst" 0, .advance 0 "n" true] ++ pass 1 completed ++
    [.advance 1 "" true, .advance 1 "" true], [.advance 0 "n" true])

def revokeFails : Trace :=
  (issuing 0 ++ pass 1 completed ++ [.advance 1 "" true, .advance 1 "" false], [])

def setupFails : Trace :=
  ([.setup, .advance 0 "" false, .issue "src" "dst" 0, .advance 1 "n" true, .advance 0 "" true,
    .advance 1 "n" true, .advance 0 "" true], [])

def reopened : Trace :=
  (pass 0 moving ++ pass 1 completed ++ [.advance 1 "" true, .advance 1 "" true],
    [.advance 0 "" true] ++ issuing 2)

def start (managed : Bool) : System := .initial config 0 managed fun _ => none

def Outlives (managed : Bool) (trace : Trace) : Prop :=
  ∃ s t, exec (System.step config) (start managed) trace.1 = some s ∧ Settled s ∧
    exec (System.step config) s trace.2 = some t ∧ Claimable config t

def claimableNow (s : System) : Bool := (claimRow s.tickets claims "n" "src" "r" s.now).isSome

theorem outlives_of_run {managed : Bool} {trace : Trace}
    (h : ∃ s, exec (step config) (start managed) trace.1 = some s ∧ Settled s ∧
      ∃ t, exec (step config) s trace.2 = some t ∧ claimableNow t) :
    Outlives managed trace := by
  obtain ⟨s, hs, hsettled, t, ht, hclaimable⟩ := h
  exact ⟨s, t, hs, hsettled, ht, claims, "n", "src", "r", rfl, hclaimable⟩

def orderlyNow (s : System) : Action → Bool
  | .advance i _ ok =>
    match s.tasks[i]? with
    | some (.handler (.insert ..)) => s.row.status.active
    | some (.handler (.write settlement)) => settlement.status.active && s.row.status.active
    | some (.handler (.finish settlement)) => !settlement.status.active || s.row.status.active
    | some (.handler .reconcile) => ok
    | _ => true
  | .work _ write _ _ => write.status.active && s.row.status.active
  | .tick _ | .claim _ | .issue .. | .setup | .poll | .dispatch | .cancel | .answer .. |
    .claimLeg .. | .consume .. | .revokeExpired => true

theorem orderly_of_now {a : Action} (h : orderlyNow s a = true) : Orderly c s a := by
  cases a with
  | advance i nonce ok =>
    simp only [orderlyNow] at h
    simp only [Orderly]
    split at h
    case h_3 settlement htask =>
      intro hactive
      simpa [hactive] using h
    all_goals simp_all [Permitted]
  | work i write result ok => simp_all [orderlyNow, Orderly, Permitted]
  | _ => trivial

end Traces

open Traces

end Shiftgate.Relay.Settlement
