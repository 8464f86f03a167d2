import Shiftgate.Library.FileTable

/-! Plans and entitlements: the catalog of `internal/billing/plans.go`, what is derived from a
Stripe subscription, and the statements of `internal/database/entitlements.go`. -/

namespace Shiftgate.Billing

open Library

structure Plan where
  key : String
  maxMachines : Int
  maxStorageBytes : Int
  perSeat : Bool
  includedSeats : Int
  seatOverageCents : Int
  seatDerivedStorage : Bool
  storagePerSeatBytes : Int
  storageCapBytes : Int

def unlimited : Int := -1

def gib : Int := 1024 * 1024 * 1024

def catalog : List Plan :=
  [⟨"free", 2, 10 * gib, false, 0, 0, false, 0, 0⟩,
    ⟨"pro", 10, 120 * gib, false, 0, 0, false, 0, 0⟩,
    ⟨"business", unlimited, 500 * gib, false, 5, 1900, true, 100 * gib, 2 * 1024 * gib⟩,
    ⟨"enterprise", unlimited, unlimited, false, 0, 0, false, 0, 0⟩]

def Plan.zero : Plan := ⟨"", 0, 0, false, 0, 0, false, 0, 0⟩

def findPlan (key : String) : Option Plan := catalog.find? fun plan => plan.key = key

def effectiveStorageBytes (plan : Plan) (seats : Int) : Int :=
  if plan.seatDerivedStorage then
    let total := plan.maxStorageBytes + plan.storagePerSeatBytes * max seats 1
    if plan.storageCapBytes > 0 ∧ total > plan.storageCapBytes then plan.storageCapBytes else total
  else plan.maxStorageBytes

def seatOverageUnitAmount (plan : Plan) (interval : String) : Int :=
  if plan.seatOverageCents ≤ 0 then 0
  else if interval = "year" then plan.seatOverageCents * 12
  else plan.seatOverageCents

def addOns : List String := ["ha", "sourceguard"]

/-- The characters with the property `White_Space`. -/
def isSpace (c : Char) : Bool :=
  (9 ≤ c.toNat && c.toNat ≤ 13) || (0x2000 ≤ c.toNat && c.toNat ≤ 0x200a) ||
    [0x20, 0x85, 0xa0, 0x1680, 0x2028, 0x2029, 0x202f, 0x205f, 0x3000].contains c.toNat

def trimSpace (text : List Char) : List Char :=
  ((text.dropWhile isSpace).reverse.dropWhile isSpace).reverse

def parseDigits (digits : List Char) : Option Nat :=
  if digits.isEmpty then none
  else digits.foldlM (fun n c =>
    if c.isDigit then some (10 * n + (c.toNat - '0'.toNat)) else none) 0

def parseInt (text : String) : Option Int :=
  let parsed := match text.toList with
    | '-' :: digits => (parseDigits digits).map fun n => -(n : Int)
    | '+' :: digits => (parseDigits digits).map fun n => (n : Int)
    | digits => (parseDigits digits).map fun n => (n : Int)
  parsed.filter fun n => -2 ^ 63 ≤ n ∧ n < 2 ^ 63

def parseMetadataInt (value : String) (fallback : Int) : Int :=
  match parseInt value with
  | some n => if n ≤ 0 then fallback else n
  | none => fallback

/-- A Go map of strings; a missing key reads as empty. -/
abbrev Metadata := List (String × String)

def Metadata.get (metadata : Metadata) (key : String) : String := (metadata.lookup key).getD ""

structure SubscriptionItem where
  id : String
  quantity : Int
  priceID : String
  unitAmount : Int
  deriving DecidableEq

structure StripeSubscription where
  id : String
  customer : String
  status : String
  metadata : Metadata
  items : List SubscriptionItem
  deriving DecidableEq

structure StripeEvent where
  id : String
  type : String
  created : Int
  subscription : Option StripeSubscription
  deriving DecidableEq

def resolveSubscriptionLimits (metadata : Metadata) : String × Int × Int :=
  match findPlan (metadata.get "plan") with
  | some plan =>
    (metadata.get "plan",
      effectiveStorageBytes plan (parseMetadataInt (metadata.get "seats") 0), plan.maxMachines)
  | none =>
    (if metadata.get "plan" = "" then "paid" else metadata.get "plan",
      parseMetadataInt (metadata.get "max_storage_bytes") (100 * gib),
      parseMetadataInt (metadata.get "max_machines") 10)

abbrev Prices := List (String × String)

def knownStripePriceIDs (prices : Prices) (planKey : String) : List String :=
  ([planKey, planKey ++ "_annual"] ++ addOns.map ("addon_" ++ ·)).filterMap fun key =>
    (prices.lookup key).filter (· ≠ "")

def StripeSubscription.seatItemID (s : StripeSubscription) (plan : Plan) (known : List String) :
    String :=
  if plan.perSeat then (s.items.head?.map (·.id)).getD ""
  else
    let seatUnit := seatOverageUnitAmount plan (s.metadata.get "interval")
    let others := s.items.filter fun item => !known.contains item.priceID
    match (others.filter fun item => seatUnit > 0 ∧ item.unitAmount = seatUnit).getLast? with
    | some item => item.id
    | none => (others.head?.map (·.id)).getD ""

def StripeSubscription.seatPurchase (s : StripeSubscription) (plan : Plan) (known : List String) :
    String × Int :=
  let seats := parseMetadataInt (s.metadata.get "seats") 0
  if seats > 0 then (s.seatItemID plan known, seats)
  else if plan.perSeat ∨ plan.key = "" then
    match s.items with
    | item :: _ => (item.id, item.quantity)
    | [] => ("", 0)
  else ("", 0)

structure SubscriptionExtras where
  interval : String
  seatsIncluded : Int
  sourceGuard : Bool
  failover : Bool
  overageCapCents : Int

def parseSubscriptionExtras (metadata : Metadata) : SubscriptionExtras :=
  let keys := ((metadata.get "addons").toList.splitOn ',').map trimSpace
  { interval := if metadata.get "interval" = "" then "month" else metadata.get "interval"
    seatsIncluded := ((findPlan (metadata.get "plan")).map (·.includedSeats)).getD 0
    sourceGuard := keys.contains "sourceguard".toList
    failover := keys.contains "ha".toList
    overageCapCents := parseMetadataInt (metadata.get "spend_cap_cents") 0 }

def statusActive (status : String) : Bool :=
  ["active", "trialing", "past_due"].any fun live => trimSpace status.toList = live.toList

def subscriptionStatusDeferred (status : String) : Bool :=
  status = "incomplete" || status = "incomplete_expired"

def maxSpendCapCents : Int := 1000000000

structure Terms where
  plan : String
  status : String
  maxStorageBytes : Int
  maxMachines : Int
  stripeCustomerID : String
  stripeSubscriptionID : String
  grandfathered : Bool
  deriving DecidableEq

structure Extras where
  seats : Int
  stripeItemID : String
  interval : String
  seatsIncluded : Int
  sourceGuard : Bool
  failover : Bool
  overageCapCents : Int
  trialExpiresAt : Option Int
  deriving DecidableEq

structure Organization where
  createdAt : Int
  terms : Terms
  extras : Extras
  deriving DecidableEq

structure Application where
  plan : String
  status : String
  customerID : String
  subscriptionID : String
  maxStorageBytes : Int
  maxMachines : Int

/-- 2026-12-10 in seconds. -/
def quotaRevisionDate : Int := 1796860800

def Application.limits (a : Application) : Int × Int :=
  if statusActive a.status then (a.maxStorageBytes, a.maxMachines)
  else match findPlan "free" with
    | some free => (free.maxStorageBytes, free.maxMachines)
    | none => (a.maxStorageBytes, a.maxMachines)

/-- A same-plan sync with the catalog's value keeps what an older organization has. -/
def Application.floors (a : Application) (createdAt : Int) (t : Terms) : Bool :=
  createdAt < quotaRevisionDate && statusActive a.status &&
    (findPlan a.plan).any (fun plan => plan.maxStorageBytes = a.limits.1) && t.plan = a.plan

def Terms.apply (createdAt : Int) (a : Application) (t : Terms) : Terms where
  plan := a.plan
  status := a.status
  maxStorageBytes :=
    if a.floors createdAt t then max t.maxStorageBytes a.limits.1 else a.limits.1
  maxMachines := a.limits.2
  stripeCustomerID := a.customerID
  stripeSubscriptionID := a.subscriptionID
  grandfathered := t.grandfathered || createdAt < quotaRevisionDate

def Extras.setSeats (seats : Int) (itemID : String) (x : Extras) : Extras :=
  { x with seats := seats, stripeItemID := if itemID = "" then x.stripeItemID else itemID }

def Extras.setExtras (e : SubscriptionExtras) (clearTrial : Bool) (x : Extras) : Extras :=
  { x with
    interval := if e.interval ≠ "month" ∧ e.interval ≠ "year" then "month" else e.interval
    seatsIncluded := e.seatsIncluded
    sourceGuard := e.sourceGuard
    failover := e.failover
    overageCapCents := e.overageCapCents
    trialExpiresAt := if clearTrial then none else x.trialExpiresAt }

section Events

variable (prices : Prices) (type : String) (s : StripeSubscription)

def eventStatus : String :=
  if type = "customer.subscription.deleted" then "canceled" else s.status

def eventApplication : Application :=
  let limits := resolveSubscriptionLimits s.metadata
  ⟨limits.1, eventStatus type s, s.customer, s.id, limits.2.1, limits.2.2⟩

def eventSeats : String × Int :=
  s.seatPurchase ((findPlan (s.metadata.get "plan")).getD .zero)
    (knownStripePriceIDs prices (s.metadata.get "plan"))

def eventExtras : SubscriptionExtras :=
  let extras := parseSubscriptionExtras s.metadata
  { extras with overageCapCents := min extras.overageCapCents maxSpendCapCents }

def storeSeats (x : Extras) : Extras :=
  if (eventSeats prices s).2 > 0 then x.setSeats (eventSeats prices s).2 (eventSeats prices s).1
  else x

def storeExtras (x : Extras) : Extras :=
  x.setExtras (eventExtras s) (statusActive (eventStatus type s))

def applySubscription (o : Organization) : Organization :=
  { o with
    terms := o.terms.apply o.createdAt (eventApplication type s)
    extras := storeExtras type s (storeSeats prices s o.extras) }

end Events

end Shiftgate.Billing
