import Shiftgate.Billing.Webhook

/-! One reconciliation of an organization with nothing in between, and its repetition
(`controlplane/reconcile.go`). What counts as drift and what the fix writes are not the same
fields. Then the storage that events and fixes leave to an organization of before the revision. -/

namespace Shiftgate.Billing

open Library Database

def Database.reconcile (d : Database) (organizationID : String) (o : Organization)
    (fetched : FetchedSubscription) (stamp : String) : Database × Bool :=
  if !drifted o fetched then (d, false)
  else match d.organizations.get organizationID with
    | none => (d, false)
    | some current =>
      if current.terms.plan ≠ o.terms.plan ∨ current.terms.status ≠ o.terms.status ∨
          current.extras.seats ≠ o.extras.seats then (d, false)
      else d.applyStripeSubscription ("reconcile-" ++ organizationID ++ "-" ++ stamp)
        "reconcile.drift_fix" none organizationID (reconciledApplication o fetched)

theorem alone_applyReconciledSubscription (d : Database) (organizationID : String)
    (o : Organization) (fetched : FetchedSubscription) (stamp : String) (old : Nat)
    (answer : Option (FetchedSubscription × String)) :
    ((applyReconciledSubscription organizationID o fetched stamp).alone
      (fun d command => serve d ⟨.yes, old, answer⟩ command) d).1 =
        (d.reconcile organizationID o fetched stamp).1 := by
  unfold applyReconciledSubscription reconcile
  cases drifted o fetched with
  | false => rfl
  | true =>
    simp only [Bool.not_true, Bool.false_eq_true, if_false, access, Thread.perform_bind,
      Thread.alone_ask, serve, if_true]
    cases d.organizations.get organizationID with
    | none => rfl
    | some current =>
      simp only
      split_ifs <;> rfl

def reconciledRow (o : Organization) (fetched : FetchedSubscription) : Organization :=
  { o with terms := o.terms.apply o.createdAt (reconciledApplication o fetched) }

def reported (old new : String) : String := if new = "" then old else new

structure Agrees (o o' : Organization) (fetched : FetchedSubscription) : Prop where
  plan : o'.terms.plan = reported o.terms.plan fetched.plan
  status : o'.terms.status = reported o.terms.status fetched.status
  seats : o'.extras.seats = if fetched.seats > 0 then fetched.seats else o.extras.seats

/-- The row agrees with Stripe, and a pass changes nothing and finds no drift. -/
def Converged (d : Database) (organizationID : String) (o : Organization)
    (fetched : FetchedSubscription) : Prop :=
  ∃ o', d.organizations.get organizationID = some o' ∧ Agrees o o' fetched ∧
    ∀ stamp, d.reconcile organizationID o' fetched stamp = (d, false)

/-- Stripe reports a plan and a status, or the row has none, and no new seats. -/
def Reported (o : Organization) (fetched : FetchedSubscription) : Prop :=
  (fetched.plan = "" → o.terms.plan = "") ∧ (fetched.status = "" → o.terms.status = "") ∧
    (fetched.seats > 0 → o.extras.seats = fetched.seats)

variable {d : Database} {organizationID stamp : String} {o o' : Organization}
  {fetched : FetchedSubscription}

theorem eq_reported {old new : String} : new = reported old new ↔ (new = "" → old = "") := by
  unfold reported
  split_ifs with hnew
  · simp [hnew, eq_comm]
  · simp [hnew]

theorem Agrees.not_drifted (h : Agrees o o' fetched) : drifted o' fetched = false := by
  have hseats : fetched.seats > 0 → o'.extras.seats = fetched.seats := by
    intro hpos
    rw [h.seats, if_pos hpos]
  have hkept {old new : String} (hne : reported old new ≠ new) : new = "" := by
    by_contra hnew
    exact hne (if_neg hnew)
  simp only [drifted, Bool.or_eq_false_iff, Bool.and_eq_false_imp, decide_eq_true_eq,
    decide_eq_false_iff_not, not_not, h.plan, h.status]
  exact ⟨⟨hkept, hkept⟩, hseats⟩

theorem agrees_reconciledRow : Agrees o (reconciledRow o fetched) fetched ↔ Reported o fetched := by
  unfold Reported
  rw [← eq_reported, ← eq_reported]
  constructor
  · rintro ⟨hplan, hstatus, hseats⟩
    exact ⟨hplan, hstatus, fun hpos => hseats.trans (if_pos hpos)⟩
  · rintro ⟨hplan, hstatus, hseats⟩
    refine ⟨hplan, hstatus, ?_⟩
    split_ifs with hpos
    · exact hseats hpos
    · rfl

theorem reconcile_true (hrow : d.organizations.get organizationID = some o)
    (htrue : (d.reconcile organizationID o fetched stamp).2 = true) :
    drifted o fetched = true ∧
    (d.reconcile organizationID o fetched stamp).1.organizations.get organizationID =
      some (if organizationID = "" then o else reconciledRow o fetched) := by
  unfold reconcile at htrue ⊢
  split_ifs at htrue ⊢ with hdrift
  all_goals
    refine ⟨by simpa using hdrift, ?_⟩
    simp only [hrow, ne_eq, not_true_eq_false, or_self, if_false] at htrue ⊢
    unfold applyStripeSubscription at htrue ⊢
    split_ifs at htrue ⊢
    simp_all [update, FileTable.get_set_same, reconciledRow]

/-- After a pass that returned true the row has converged exactly if Stripe reported a plan and a
status wherever the row has one, and no other number of seats. -/
theorem reconciliation_converges_iff (hrow : d.organizations.get organizationID = some o)
    (htrue : (d.reconcile organizationID o fetched stamp).2 = true) :
    Converged (d.reconcile organizationID o fetched stamp).1 organizationID o fetched ↔
      organizationID ≠ "" ∧ Reported o fetched := by
  obtain ⟨hdrift, hget⟩ := reconcile_true hrow htrue
  rw [← agrees_reconciledRow]
  constructor
  · rintro ⟨o', ho', hagrees, -⟩
    cases hget.symm.trans ho'
    by_cases hid : organizationID = ""
    · -- nothing was written, so the drift is still there
      rw [if_pos hid] at hagrees
      simp [hagrees.not_drifted] at hdrift
    · rw [if_neg hid] at hagrees
      exact ⟨hid, hagrees⟩
  · rintro ⟨hid, hagrees⟩
    rw [if_neg hid] at hget
    refine ⟨_, hget, hagrees, fun again => ?_⟩
    unfold reconcile
    rw [hagrees.not_drifted]
    rfl

def proRow : Organization :=
  ⟨1800000000, ⟨"pro", "active", 0, 0, "cus", "sub", false⟩,
    ⟨5, "", "month", 0, false, false, 0, none⟩⟩

def proDatabase : Database := ⟨[], FileTable.empty.set "org" proRow⟩

theorem reconciliation_converges_past_due :
    Converged (proDatabase.reconcile "org" proRow ⟨"sub", "past_due", "pro", 5⟩ "t").1 "org" proRow
      ⟨"sub", "past_due", "pro", 5⟩ :=
  (reconciliation_converges_iff (by decide) (by decide)).mpr
    ⟨by decide, by decide, by decide, by decide⟩

/-- Stripe reports seven seats: every pass finds the drift. A status alone clears the plan. -/
theorem reconciliation_repeats_seats :
    (proDatabase.reconcile "org" proRow ⟨"sub", "active", "pro", 7⟩ "t").2 = true ∧
    ¬ Converged (proDatabase.reconcile "org" proRow ⟨"sub", "active", "pro", 7⟩ "t").1 "org" proRow
      ⟨"sub", "active", "pro", 7⟩ ∧
    (proDatabase.reconcile "org" proRow ⟨"sub", "past_due", "", 0⟩ "t").2 = true ∧
    ¬ Converged (proDatabase.reconcile "org" proRow ⟨"sub", "past_due", "", 0⟩ "t").1 "org" proRow
      ⟨"sub", "past_due", "", 0⟩ := by
  refine ⟨by decide, ?_, by decide, ?_⟩
  · rintro ⟨o', ho', hagrees, -⟩
    cases (reconcile_true (by decide) (by decide)).2.symm.trans ho'
    exact absurd hagrees.seats (by decide)
  · rintro ⟨o', ho', hagrees, -⟩
    cases (reconcile_true (by decide) (by decide)).2.symm.trans ho'
    exact absurd hagrees.plan (by decide)

inductive Sync where
  | event (type : String) (s : StripeSubscription)
  | fix (snapshot : Organization) (fetched : FetchedSubscription)

def Sync.application : Sync → Application
  | event type s => eventApplication type s
  | fix snapshot fetched => reconciledApplication snapshot fetched

def Sync.Keeps (key : String) (sync : Sync) : Prop :=
  sync.application.plan = key ∧ statusActive sync.application.status = true

def Terms.sync (createdAt : Int) (t : Terms) (syncs : List Sync) : Terms :=
  syncs.foldl (fun t sync => t.apply createdAt sync.application) t

section Grandfathering

variable {key : String} {plan : Plan} (hplan : findPlan key = some plan)
  (hflat : plan.seatDerivedStorage = false) {createdAt : Int} (hold : createdAt < quotaRevisionDate)
  {t : Terms} {sync : Sync} {syncs : List Sync}

include hplan hflat

/-- A plan with flat storage comes with the catalog's value. -/
theorem Sync.application_storage (h : sync.application.plan = key) :
    sync.application.maxStorageBytes = plan.maxStorageBytes := by
  cases sync with
  | event type s =>
    have hkey : s.metadata.get "plan" = key := by
      simp only [application, eventApplication, resolveSubscriptionLimits] at h
      split at h
      · exact h
      · split_ifs at h
        · simp [← h, findPlan, catalog] at hplan
        · exact h
    simp [application, eventApplication, resolveSubscriptionLimits, hkey, hplan,
      effectiveStorageBytes, hflat]
  | fix snapshot fetched =>
    simp [application, reconciledApplication, show fetched.plan = key from h, hplan,
      effectiveStorageBytes, hflat]

include hold

theorem Terms.le_apply (ht : t.plan = key) (h : sync.Keeps key) :
    t.maxStorageBytes ≤ (t.apply createdAt sync.application).maxStorageBytes := by
  have hfloors : sync.application.floors createdAt t = true := by
    simp [Application.floors, Application.limits, h.1, h.2, hplan, hold, ht,
      Sync.application_storage hplan hflat h.1]
  simp [Terms.apply, hfloors]

theorem Terms.le_sync (ht : t.plan = key) (h : ∀ sync ∈ syncs, sync.Keeps key) :
    t.maxStorageBytes ≤ (t.sync createdAt syncs).maxStorageBytes ∧
      (t.sync createdAt syncs).plan = key := by
  induction syncs generalizing t with
  | nil => exact ⟨le_rfl, ht⟩
  | cons sync rest ih =>
    obtain ⟨hsync, hrest⟩ := List.forall_mem_cons.mp h
    obtain ⟨hle, hkept⟩ := ih (t := t.apply createdAt sync.application) hsync.1 hrest
    exact ⟨(Terms.le_apply hplan hflat hold ht hsync).trans hle, hkept⟩

end Grandfathering

def oldTerms (plan : String) : Terms := ⟨plan, "active", 2048 * gib, 0, "cus", "sub", true⟩

def sevenSeats (plan : String) : List Sync :=
  [.event "customer.subscription.updated"
      ⟨"sub", "cus", "active", [("plan", plan), ("seats", "7")], []⟩,
    .fix proRow ⟨"sub", "active", plan, 7⟩]

end Shiftgate.Billing
