import Shiftgate.Billing.Entitlements
import Shiftgate.Library.Growing

/-! The Stripe webhook of `internal/controlplane/billing_routes.go` and the reconciliation of
`reconcile.go`, as calls that run at once. Seats and extras are written after the transaction. -/

namespace Shiftgate.Billing

open Library

structure LedgerRow where
  eventID : String
  eventType : String
  payload : Option StripeEvent
  processed : Bool

structure Database where
  ledger : List LedgerRow
  organizations : FileTable Organization

def Database.update (d : Database) (organizationID : String) (f : Organization → Organization) :
    Database :=
  match d.organizations.get organizationID with
  | some o => { d with organizations := d.organizations.set organizationID (f o) }
  | none => d

def Database.applyStripeSubscription (d : Database) (eventID eventType : String)
    (payload : Option StripeEvent) (organizationID : String) (a : Application) : Database × Bool :=
  if d.ledger.any fun row => row.eventID = eventID then (d, false)
  else
    let applied :=
      if organizationID = "" then d
      else d.update organizationID fun o => { o with terms := o.terms.apply o.createdAt a }
    ({ applied with ledger := applied.ledger ++ [⟨eventID, eventType, payload, true⟩] }, true)

structure FetchedSubscription where
  id : String
  status : String
  plan : String
  seats : Int

inductive Command where
  | apply (eventID eventType : String) (payload : Option StripeEvent) (organizationID : String)
      (a : Application)
  | setSeats (organizationID : String) (seats : Int) (itemID : String)
  | setExtras (organizationID : String) (extras : SubscriptionExtras) (clearTrial : Bool)
  | unprocessed
  | subscribed
  | entitlement (organizationID : String)
  | getSubscription (subscriptionID : String)

@[reducible] def Reply : Command → Type
  | .apply .. => Option Bool
  | .setSeats .. => Unit
  | .setExtras .. => Unit
  | .unprocessed => List LedgerRow
  | .subscribed => List (String × Organization)
  | .entitlement _ => Option Organization
  | .getSubscription _ => Option (FetchedSubscription × String)

abbrev Caller (α : Type) := Thread Reply α

def access (command : Command) : Caller (Reply command) := Thread.perform command

inductive Answer where
  | ignored
  | invalid
  | deferred
  | failed
  | duplicate
  | processed
  | reconciled (reprocessed : Nat)
  deriving DecidableEq

inductive Op where
  | deliver (event : StripeEvent)
  | reconcile
  deriving DecidableEq

def subscriptionEvent (type : String) : Bool :=
  "customer.subscription.".toList.isPrefixOf type.toList

section Programs

variable (prices : Prices)

def storeRest (type : String) (s : StripeSubscription) : Caller Answer := do
  let organizationID := s.metadata.get "organization_id"
  if organizationID ≠ "" then
    let (itemID, seats) := eventSeats prices s
    if seats > 0 then
      let _ ← access (.setSeats organizationID seats itemID)
    let _ ← access
      (.setExtras organizationID (eventExtras s) (statusActive (eventStatus type s)))
  return .processed

def handleStripeWebhook (event : StripeEvent) : Caller Answer :=
  if event.id = "" ∨ event.type = "" then return .invalid
  else if !subscriptionEvent event.type then return .ignored
  else match event.subscription with
    | none => return .invalid
    | some s =>
      if subscriptionStatusDeferred (eventStatus event.type s) then return .deferred
      else do
        match ← access (.apply event.id event.type (some event)
            (s.metadata.get "organization_id") (eventApplication event.type s)) with
        | none => return .failed
        | some false => return .duplicate
        | some true => storeRest prices event.type s

def redriveEvents : List LedgerRow → Nat → Caller Nat
  | [], reprocessed => return reprocessed
  | row :: rest, reprocessed =>
    if !subscriptionEvent row.eventType then redriveEvents rest reprocessed
    else match row.payload.bind (·.subscription) with
      | none => redriveEvents rest reprocessed
      | some s =>
        if s.metadata.get "organization_id" = "" then redriveEvents rest reprocessed
        else do
          match ← access (.apply ("redrive-" ++ row.eventID) row.eventType row.payload
              (s.metadata.get "organization_id") (eventApplication row.eventType s)) with
          | some true => redriveEvents rest (reprocessed + 1)
          | _ => redriveEvents rest reprocessed

def reconciledApplication (o : Organization) (fetched : FetchedSubscription) : Application :=
  let limits := match findPlan fetched.plan with
    | some plan =>
      (if plan.key = "business" ∨ plan.seatDerivedStorage then
          effectiveStorageBytes plan fetched.seats
        else plan.maxStorageBytes, plan.maxMachines)
    | none => (o.terms.maxStorageBytes, o.terms.maxMachines)
  ⟨fetched.plan, fetched.status, o.terms.stripeCustomerID, fetched.id, limits.1, limits.2⟩

def drifted (o : Organization) (fetched : FetchedSubscription) : Bool :=
  (o.terms.plan ≠ fetched.plan && fetched.plan ≠ "") ||
    (o.terms.status ≠ fetched.status && fetched.status ≠ "") ||
    (fetched.seats > 0 && o.extras.seats ≠ fetched.seats)

def applyReconciledSubscription (organizationID : String) (o : Organization)
    (fetched : FetchedSubscription) (stamp : String) : Caller Unit :=
  if !drifted o fetched then return ()
  else do
    match ← access (.entitlement organizationID) with
    | none => return ()
    | some current =>
      if current.terms.plan ≠ o.terms.plan ∨ current.terms.status ≠ o.terms.status ∨
          current.extras.seats ≠ o.extras.seats then return ()
      else do
        let _ ← access (.apply ("reconcile-" ++ organizationID ++ "-" ++ stamp)
          "reconcile.drift_fix" none organizationID (reconciledApplication o fetched))
        return ()

def reconcileOrganizations : List (String × Organization) → Caller Unit
  | [] => return ()
  | (organizationID, o) :: rest => do
    match ← access (.getSubscription o.terms.stripeSubscriptionID) with
    | none => reconcileOrganizations rest
    | some (fetched, stamp) => do
      applyReconciledSubscription organizationID o fetched stamp
      reconcileOrganizations rest

def runStripeReconciliation : Caller Answer := do
  let reprocessed ← redriveEvents (← access .unprocessed) 0
  reconcileOrganizations (← access .subscribed)
  return .reconciled reprocessed

def program : Op → Caller Answer
  | .deliver event => handleStripeWebhook prices event
  | .reconcile => runStripeReconciliation

end Programs

inductive Happens where
  | yes
  | fails
  | lost
  deriving DecidableEq

/-- What becomes of a statement, how many of the first rows are old enough to be redriven, and what
Stripe answers. -/
structure Choice where
  happens : Happens
  old : Nat
  fetched : Option (FetchedSubscription × String)

def serve (d : Database) (x : Choice) : (command : Command) → Database × Reply command
  | .apply eventID eventType payload organizationID a =>
    match x.happens with
    | .yes =>
      let (d', applied) := d.applyStripeSubscription eventID eventType payload organizationID a
      (d', some applied)
    | .fails => (d, none)
    | .lost => ((d.applyStripeSubscription eventID eventType payload organizationID a).1, none)
  | .setSeats organizationID seats itemID =>
    (if x.happens = .fails then d
      else d.update organizationID fun o => { o with extras := o.extras.setSeats seats itemID }, ())
  | .setExtras organizationID extras clearTrial =>
    (if x.happens = .fails then d
      else d.update organizationID fun o =>
        { o with extras := o.extras.setExtras extras clearTrial }, ())
  | .unprocessed =>
    (d, if x.happens = .yes then
          ((d.ledger.take x.old).filter fun row => !row.processed).take 100
        else [])
  | .subscribed =>
    (d, if x.happens = .yes then
          d.organizations.entries.filter fun entry => entry.2.terms.stripeSubscriptionID ≠ ""
        else [])
  | .entitlement organizationID =>
    (d, if x.happens = .yes then d.organizations.get organizationID else none)
  | .getSubscription _ => (d, x.fetched)

def service (prices : Prices) : Service Database Op Answer Choice Reply where
  program := program prices
  serve d _ command x := some (serve d x command)
  fails x := x.happens ≠ .yes
  restart := id

abbrev Calls := Pool Database Op Answer Reply

end Shiftgate.Billing
