import Shiftgate.Billing.Webhook

/-! Runs of the webhook. The handler does not look at Stripe's timestamp, and it stores seats and
extras after the event is recorded as processed. -/

namespace Shiftgate.Billing

open Library List Database

variable {prices : Prices}

def eventOrganization (e : StripeEvent) : String :=
  (e.subscription.map (·.metadata.get "organization_id")).getD ""

def recorded (d : Database) (organizationID : String) : List StripeEvent :=
  d.ledger.filterMap fun row => row.payload.filter fun e => eventOrganization e = organizationID

def applied (prices : Prices) (o : Organization) (e : StripeEvent) : Organization :=
  match e.subscription with
  | some s => applySubscription prices e.type s o
  | none => o

/-- No newer event of the organization was applied before, or the event changes nothing; and seats
and extras are there already. -/
def inOrder (prices : Prices) (d : Database) (e : StripeEvent) (o : Organization) : Bool :=
  ((recorded d (eventOrganization e)).all (fun e' => e'.created ≤ e.created) ||
      (applied prices o e).terms = o.terms) &&
    (applied prices o e).extras = o.extras

def admitted (prices : Prices) (d : Database) : Command → Bool
  | .apply eventID _ payload organizationID a =>
    d.ledger.any (fun row => row.eventID = eventID) || organizationID = "" ||
      match d.organizations.get organizationID with
      | none => true
      | some o =>
        match payload with
        | some e => inOrder prices d e o
        | none => o.terms.apply o.createdAt a = o.terms
  | _ => true

def careful (prices : Prices) (p : Calls) : Move Op Choice → Bool
  | .advance n x =>
    match p.asks n with
    | some command => x.happens = .fails || admitted prices p.shared command
    | none => true
  | _ => true

variable {α : Type} {type : String} {s : StripeSubscription} {e : StripeEvent} {start : Database}

theorem setEntries_of_lookup {name : String} {content : α} :
    ∀ {entries : List (String × α)}, entries.lookup name = some content →
      FileTable.setEntries name content entries = entries
  | [], h => by cases h
  | (n, c) :: rest, h => by
    rw [FileTable.lookup_cons_eq_ite] at h
    by_cases hn : n = name
    · rw [if_pos hn.symm] at h
      cases h
      simp [FileTable.setEntries, hn]
    · rw [if_neg (Ne.symm hn)] at h
      simp only [FileTable.setEntries, if_neg hn, setEntries_of_lookup h]

theorem Database.update_same {d : Database} {organizationID : String}
    {f : Organization → Organization}
    (h : ∀ o, d.organizations.get organizationID = some o → f o = o) :
    d.update organizationID f = d := by
  unfold update
  cases hget : d.organizations.get organizationID with
  | none => rfl
  | some o =>
    have hset : d.organizations.set organizationID o = d.organizations :=
      congrArg FileTable.mk (setEntries_of_lookup hget)
    simp only [h o hget, hset]

theorem store_same {x : Extras} (h : storeExtras type s (storeSeats prices s x) = x) :
    storeSeats prices s x = x ∧ storeExtras type s x = x := by
  have hseats : storeSeats prices s x = x := by
    have hcount := congrArg Extras.seats h
    have hitem := congrArg Extras.stripeItemID h
    unfold storeSeats at hcount hitem ⊢
    split
    · rename_i hpositive
      simp only [storeExtras, Extras.setExtras, if_pos hpositive] at hcount hitem
      obtain ⟨seats, item, _⟩ := x
      simp only [Extras.setSeats] at hcount hitem ⊢
      rw [hcount, hitem]
    · rfl
  rw [hseats] at h
  exact ⟨hseats, h⟩

structure Grows (d d' : Database) : Prop where
  ledger : d.ledger <+: d'.ledger
  extras : ∀ organizationID o', d'.organizations.get organizationID = some o' →
    ∃ o, d.organizations.get organizationID = some o ∧ o'.extras = o.extras

/-- Every organization is what its recorded events make of it in their order, and carries all that a
newest one gives. -/
structure Applied (prices : Prices) (init : FileTable Organization) (d : Database) : Prop where
  processed : ∀ row ∈ d.ledger, row.processed = true
  rows : ∀ organizationID o, organizationID ≠ "" → d.organizations.get organizationID = some o →
    ∃ o₀, init.get organizationID = some o₀ ∧
      o = (recorded d organizationID).foldl (applied prices) o₀
  newest : ∀ organizationID o, organizationID ≠ "" →
    d.organizations.get organizationID = some o → recorded d organizationID ≠ [] →
    ∃ e ∈ recorded d organizationID, (∀ e' ∈ recorded d organizationID, e'.created ≤ e.created) ∧
      ∃ before, o = applied prices before e

theorem Grows.refl (d : Database) : Grows d d := ⟨prefix_rfl, fun _ o h => ⟨o, h, rfl⟩⟩

theorem Grows.trans {d d' d'' : Database} (h : Grows d d') (h' : Grows d' d'') : Grows d d'' := by
  refine ⟨h.ledger.trans h'.ledger, fun organizationID o'' hget => ?_⟩
  obtain ⟨o', hget', hextras'⟩ := h'.extras organizationID o'' hget
  obtain ⟨o, hget'', hextras⟩ := h.extras organizationID o' hget'
  exact ⟨o, hget'', hextras'.trans hextras⟩

section Transaction

variable {d d' : Database} {eventID eventType organizationID other : String}
  {payload : Option StripeEvent} {a : Application}

theorem Database.get_update (d : Database) (organizationID other : String)
    (f : Organization → Organization) :
    (d.update organizationID f).organizations.get other =
      if other = organizationID then (d.organizations.get other).map f
      else d.organizations.get other := by
  unfold update
  cases hget : d.organizations.get organizationID with
  | none =>
    by_cases hother : other = organizationID
    · simp [hother, hget]
    · simp [hother]
  | some o =>
    by_cases hother : other = organizationID
    · simp [hother, hget]
    · simp [hother, FileTable.get_set_other]

theorem Database.ledger_update (d : Database) (organizationID : String)
    (f : Organization → Organization) : (d.update organizationID f).ledger = d.ledger := by
  unfold update
  split <;> rfl

structure Recorded (d : Database) (eventID eventType : String) (payload : Option StripeEvent)
    (organizationID : String) (a : Application) (d' : Database) : Prop where
  ledger : d'.ledger = d.ledger ++ [⟨eventID, eventType, payload, true⟩]
  written : organizationID ≠ "" → d'.organizations.get organizationID =
    (d.organizations.get organizationID).map fun o =>
      { o with terms := o.terms.apply o.createdAt a }
  others : ∀ other, other ≠ organizationID ∨ organizationID = "" →
    d'.organizations.get other = d.organizations.get other

theorem applyStripeSubscription_new
    (hnew : (d.ledger.any fun row => row.eventID = eventID) = false) :
    Recorded d eventID eventType payload organizationID a
      (d.applyStripeSubscription eventID eventType payload organizationID a).1 := by
  unfold applyStripeSubscription
  rw [hnew]
  by_cases hempty : organizationID = ""
  · simp only [hempty, if_true, Bool.false_eq_true, if_false]
    exact ⟨rfl, fun h => absurd rfl h, fun _ _ => rfl⟩
  · simp only [hempty, if_false, Bool.false_eq_true]
    refine ⟨by rw [ledger_update], fun _ => ?_, fun other hother => ?_⟩
    · rw [get_update, if_pos rfl]
    · rw [get_update, if_neg (by simpa [hempty] using hother)]

theorem applyStripeSubscription_result :
    (d.applyStripeSubscription eventID eventType payload organizationID a).2 =
      !d.ledger.any fun row => row.eventID = eventID := by
  unfold applyStripeSubscription
  cases d.ledger.any fun row => row.eventID = eventID <;> rfl

theorem applyStripeSubscription_old
    (hold : (d.ledger.any fun row => row.eventID = eventID) = true) :
    (d.applyStripeSubscription eventID eventType payload organizationID a).1 = d := by
  unfold applyStripeSubscription
  rw [hold]
  rfl

section

variable (h : Recorded d eventID eventType payload organizationID a d')

include h

theorem Recorded.grows : Grows d d' := by
  refine ⟨⟨_, h.ledger.symm⟩, fun other o' hget => ?_⟩
  by_cases hother : other ≠ organizationID ∨ organizationID = ""
  · rw [h.others other hother] at hget
    exact ⟨o', hget, rfl⟩
  · obtain ⟨rfl, hne⟩ : other = organizationID ∧ organizationID ≠ "" := by
      rwa [not_or, not_not] at hother
    rw [h.written hne] at hget
    obtain ⟨o, ho, rfl⟩ := Option.map_eq_some_iff.mp hget
    exact ⟨o, ho, rfl⟩

theorem Recorded.processed (hprocessed : ∀ row ∈ d.ledger, row.processed = true) :
    ∀ row ∈ d'.ledger, row.processed = true := by
  intro row hrow
  rw [h.ledger] at hrow
  rcases mem_append.mp hrow with hold | hnew
  · exact hprocessed row hold
  · cases mem_singleton.mp hnew
    rfl

theorem Recorded.recorded_other (hpayload : ∀ e, payload = some e → eventOrganization e ≠ other) :
    recorded d' other = recorded d other := by
  simp only [recorded, h.ledger, filterMap_append]
  cases payload with
  | none => simp
  | some e => simp [Option.filter, hpayload e rfl]

end

theorem Recorded.recorded_event (h : Recorded d eventID eventType (some e) organizationID a d')
    (horganization : eventOrganization e = organizationID) :
    recorded d' organizationID = recorded d organizationID ++ [e] := by
  simp only [recorded, h.ledger, filterMap_append]
  simp [Option.filter, horganization]

variable {init : FileTable Organization}

theorem Applied.fix (h : Applied prices init d)
    (hrecorded : Recorded d eventID eventType none organizationID a d')
    (hsame : organizationID ≠ "" → ∀ o, d.organizations.get organizationID = some o →
      o.terms.apply o.createdAt a = o.terms) : Applied prices init d' := by
  have hrow : ∀ other, d'.organizations.get other = d.organizations.get other := by
    intro other
    by_cases hother : other ≠ organizationID ∨ organizationID = ""
    · exact hrecorded.others other hother
    · obtain ⟨rfl, hne⟩ : other = organizationID ∧ organizationID ≠ "" := by
        rwa [not_or, not_not] at hother
      rw [hrecorded.written hne]
      cases hget : d.organizations.get other with
      | none => rfl
      | some o => simp [hsame hne o hget]
  have hevents : ∀ other, recorded d' other = recorded d other :=
    fun other => hrecorded.recorded_other (by simp)
  refine ⟨hrecorded.processed h.processed, fun other o hne hget => ?_, fun other o hne hget => ?_⟩
  · rw [hrow] at hget
    rw [hevents]
    exact h.rows other o hne hget
  · rw [hrow] at hget
    rw [hevents]
    exact h.newest other o hne hget

theorem Applied.event (h : Applied prices init d) (hs : e.subscription = some s)
    (hrecorded : Recorded d eventID eventType (some e) (eventOrganization e)
      (eventApplication e.type s) d') (horder : ∀ o, eventOrganization e ≠ "" →
      d.organizations.get (eventOrganization e) = some o → inOrder prices d e o = true) :
    Applied prices init d' := by
  have hrow : ∀ o', eventOrganization e ≠ "" →
      d'.organizations.get (eventOrganization e) = some o' →
      ∃ o, d.organizations.get (eventOrganization e) = some o ∧ o' = applied prices o e ∧
        inOrder prices d e o = true := by
    intro o' hne hget
    rw [hrecorded.written hne] at hget
    obtain ⟨o, ho, rfl⟩ := Option.map_eq_some_iff.mp hget
    have hinOrder := horder o hne ho
    refine ⟨o, ho, ?_, hinOrder⟩
    simp only [inOrder, Bool.and_eq_true, decide_eq_true_eq] at hinOrder
    have hextras := hinOrder.2
    simp only [applied, hs, applySubscription] at hextras ⊢
    rw [hextras]
  refine ⟨hrecorded.processed h.processed, fun other o' hne hget => ?_,
    fun other o' hne hget hsome => ?_⟩
  · by_cases hother : other = eventOrganization e
    · subst hother
      obtain ⟨o, ho, rfl, -⟩ := hrow o' hne hget
      obtain ⟨o₀, hinit, hfold⟩ := h.rows _ o hne ho
      refine ⟨o₀, hinit, ?_⟩
      rw [hrecorded.recorded_event rfl, foldl_append, ← hfold]
      rfl
    · rw [hrecorded.others other (.inl hother)] at hget
      rw [hrecorded.recorded_other (by rintro e' ⟨⟩; exact Ne.symm hother)]
      exact h.rows other o' hne hget
  · by_cases hother : other = eventOrganization e
    · subst hother
      obtain ⟨o, ho, rfl, hinOrder⟩ := hrow o' hne hget
      rw [hrecorded.recorded_event rfl]
      by_cases hlast : ∀ e' ∈ recorded d (eventOrganization e), e'.created ≤ e.created
      · refine ⟨e, by simp, fun e' he' => ?_, o, rfl⟩
        rcases mem_append.mp he' with hold | hnew
        · exact hlast e' hold
        · rw [mem_singleton.mp hnew]
      · -- an older event, which changes nothing
        simp only [inOrder, Bool.and_eq_true, Bool.or_eq_true, all_eq_true,
          decide_eq_true_eq] at hinOrder
        have hterms := hinOrder.1.resolve_left hlast
        have hsame : applied prices o e = o := by
          simp only [applied, hs, applySubscription] at hterms hinOrder ⊢
          rw [hterms, hinOrder.2]
        push Not at hlast
        obtain ⟨newer, hnewer, hlt⟩ := hlast
        obtain ⟨e₀, he₀, hnewest, before, hbefore⟩ :=
          h.newest _ o hne ho (ne_nil_of_mem hnewer)
        refine ⟨e₀, mem_append_left _ he₀, fun e' he' => ?_, before, by rw [hsame, hbefore]⟩
        rcases mem_append.mp he' with hold | hnew
        · exact hnewest e' hold
        · rw [mem_singleton.mp hnew]
          exact hlt.le.trans (hnewest newer hnewer)
    · rw [hrecorded.others other (.inl hother)] at hget
      have hevents : recorded d' other = recorded d other :=
        hrecorded.recorded_other (by rintro e' ⟨⟩; exact Ne.symm hother)
      rw [hevents] at hsome ⊢
      exact h.newest other o' hne hget hsome

end Transaction

section Calls

variable {init : FileTable Organization} {d : Database} {n : Nat} {failed : Bool}

def growth (prices : Prices) (init : FileTable Organization) : Growth (service prices) where
  le := Grows
  refl := .refl
  trans := .trans
  Inv := Applied prices init
  calls _ := True
  allowed d _ command x := x.happens = .fails ∨ admitted prices d command = true
  restart_grows := .refl
  restart_keeps _ h := h

def Acknowledged : Op → Database → Bool → Database → Answer → Prop
  | .deliver e, _, _, d, a => a = .processed ∨ a = .duplicate → ∃ row ∈ d.ledger, row.eventID = e.id
  | .reconcile, _, _, _, _ => True

theorem ensures_ask {op : Op} {Q : Bool → Database → α → Prop} {command : Command}
    {rest : Reply command → Caller α} (h : ∀ d' x, Grows d d' → Applied prices init d' →
      x.happens = .fails ∨ admitted prices d' command = true →
      Grows d' (serve d' x command).1 ∧ Applied prices init (serve d' x command).1 ∧
        ∀ failed', (growth prices init).Ensures n op Q (rest (serve d' x command).2) failed'
          (serve d' x command).1) :
    (growth prices init).Ensures n op Q (.ask command rest) failed d := by
  intro d' x t r hle hinv hallowed hserve
  have hnext := h d' x hle hinv hallowed
  rw [show serve d' x command = (t, r) from Option.some.inj hserve] at hnext
  exact ⟨hnext.1, hnext.2.1, hnext.2.2 _⟩

theorem storeRest_eq (type : String) (s : StripeSubscription) :
    storeRest prices type s =
      if s.metadata.get "organization_id" = "" then .done .processed
      else if (eventSeats prices s).2 > 0 then
        .ask (.setSeats (s.metadata.get "organization_id") (eventSeats prices s).2
          (eventSeats prices s).1) fun _ =>
        .ask (.setExtras (s.metadata.get "organization_id") (eventExtras s)
          (statusActive (eventStatus type s))) fun _ => .done .processed
      else
        .ask (.setExtras (s.metadata.get "organization_id") (eventExtras s)
          (statusActive (eventStatus type s))) fun _ => .done .processed := by
  unfold storeRest
  by_cases hempty : s.metadata.get "organization_id" = ""
  · simp [hempty]
  · by_cases hseats : (eventSeats prices s).2 > 0
    · simp only [hempty, hseats, ne_eq, not_false_eq_true, if_true, if_false]
      rfl
    · simp only [hempty, hseats, ne_eq, not_false_eq_true, if_true, if_false]
      rfl

def Stored (prices : Prices) (type : String) (s : StripeSubscription) (d : Database) : Prop :=
  ∀ o, s.metadata.get "organization_id" ≠ "" →
    d.organizations.get (s.metadata.get "organization_id") = some o →
    storeExtras type s (storeSeats prices s o.extras) = o.extras

theorem Stored.grow {d' : Database} (h : Stored prices type s d) (hgrows : Grows d d') :
    Stored prices type s d' := by
  intro o' hne hget
  obtain ⟨o, hget', hextras⟩ := hgrows.extras _ o' hget
  rw [hextras]
  exact h o hne hget'

section

variable (h : Stored prices type s d) (hne : s.metadata.get "organization_id" ≠ "")

include h hne

theorem Stored.setSeats (hseats : (eventSeats prices s).2 > 0) (x : Choice) :
    (serve d x (.setSeats (s.metadata.get "organization_id") (eventSeats prices s).2
      (eventSeats prices s).1)).1 = d := by
  simp only [serve]
  split
  · rfl
  · refine update_same fun o hget => ?_
    have hextras := (store_same (h o hne hget)).1
    rw [storeSeats, if_pos hseats] at hextras
    rw [hextras]

theorem Stored.setExtras (x : Choice) :
    (serve d x (.setExtras (s.metadata.get "organization_id") (eventExtras s)
      (statusActive (eventStatus type s)))).1 = d := by
  simp only [serve]
  split
  · rfl
  · refine update_same fun o hget => ?_
    have hextras := (store_same (h o hne hget)).2
    rw [storeExtras] at hextras
    rw [hextras]

end

theorem acknowledged_of_ledger {a : Answer} (hledger : ∃ row ∈ d.ledger, row.eventID = e.id) :
    (growth prices init).Ensures n (.deliver e) (Acknowledged (.deliver e) start) (.done a) failed
      d := by
  intro d' hgrows _
  obtain ⟨row, hrow, hid⟩ := hledger
  exact ⟨row, hgrows.ledger.subset hrow, hid⟩

theorem storeRest_ensures (hstored : Stored prices e.type s d)
    (hledger : ∃ row ∈ d.ledger, row.eventID = e.id) :
    (growth prices init).Ensures n (.deliver e) (Acknowledged (.deliver e) start)
      (storeRest prices e.type s) failed d := by
  have hextras : ∀ (d : Database) (failed : Bool), Stored prices e.type s d →
      s.metadata.get "organization_id" ≠ "" → (∃ row ∈ d.ledger, row.eventID = e.id) →
      (growth prices init).Ensures n (.deliver e) (Acknowledged (.deliver e) start)
        (.ask (.setExtras (s.metadata.get "organization_id") (eventExtras s)
          (statusActive (eventStatus e.type s))) fun _ => .done .processed) failed d := by
    rintro d failed hstored hne ⟨row, hrow, hid⟩
    refine ensures_ask fun d' x hgrows hinv _ => ?_
    rw [(hstored.grow hgrows).setExtras hne]
    exact ⟨.refl _, hinv, fun _ => acknowledged_of_ledger ⟨row, hgrows.ledger.subset hrow, hid⟩⟩
  rw [storeRest_eq]
  split
  · exact acknowledged_of_ledger hledger
  · rename_i hne
    split
    · rename_i hseats
      obtain ⟨row, hrow, hid⟩ := hledger
      refine ensures_ask fun d' x hgrows hinv _ => ?_
      rw [(hstored.grow hgrows).setSeats hne hseats]
      exact ⟨.refl _, hinv, fun failed' =>
        hextras d' failed' (hstored.grow hgrows) hne ⟨row, hgrows.ledger.subset hrow, hid⟩⟩
    · exact hextras d failed hstored hne hledger

theorem deliver_recorded (hs : e.subscription = some s) (h : Applied prices init d)
    (hadmitted : admitted prices d (.apply e.id e.type (some e) (s.metadata.get "organization_id")
      (eventApplication e.type s)) = true)
    (hnew : (d.ledger.any fun row => row.eventID = e.id) = false) :
    let d' := (d.applyStripeSubscription e.id e.type (some e) (s.metadata.get "organization_id")
      (eventApplication e.type s)).1
    Grows d d' ∧ Applied prices init d' ∧ Stored prices e.type s d' ∧
      ∃ row ∈ d'.ledger, row.eventID = e.id := by
  have horganization : s.metadata.get "organization_id" = eventOrganization e := by
    simp [eventOrganization, hs]
  have horder : ∀ o, eventOrganization e ≠ "" →
      d.organizations.get (eventOrganization e) = some o → inOrder prices d e o = true := by
    intro o hne hget
    simpa [admitted, hnew, horganization, hne, hget] using hadmitted
  rw [horganization]
  have hrecorded : Recorded d e.id e.type (some e) (eventOrganization e)
      (eventApplication e.type s) _ := applyStripeSubscription_new hnew
  refine ⟨hrecorded.grows, h.event hs hrecorded horder, fun o' hne hget => ?_, ?_⟩
  · rw [horganization] at hne hget
    obtain ⟨o, ho, hextras⟩ := hrecorded.grows.extras _ o' hget
    have hinOrder := horder o hne ho
    simp only [inOrder, Bool.and_eq_true, decide_eq_true_eq] at hinOrder
    rw [hextras]
    simpa only [applied, hs, applySubscription] using hinOrder.2
  · rw [hrecorded.ledger]
    exact ⟨_, mem_append_right _ (mem_singleton_self _), rfl⟩

theorem deliver_ensures (e : StripeEvent) (start d : Database) :
    (growth prices init).Ensures n (.deliver e) (Acknowledged (.deliver e) start)
      (program prices (.deliver e)) failed d := by
  have hnot : ∀ (d : Database) (failed : Bool) {a : Answer}, a ≠ .processed → a ≠ .duplicate →
      (growth prices init).Ensures n (.deliver e) (Acknowledged (.deliver e) start) (.done a) failed
        d := fun d failed a h h' d' _ ha => (ha.elim h h').elim
  simp only [program, handleStripeWebhook]
  split
  · exact hnot _ _ nofun nofun
  split
  · exact hnot _ _ nofun nofun
  cases hs : e.subscription with
  | none => exact hnot _ _ nofun nofun
  | some s =>
    simp only
    split
    · exact hnot _ _ nofun nofun
    · refine ensures_ask fun d' x hgrows hinv hallowed => ?_
      cases hx : x.happens with
      | fails =>
        simp only [serve, hx]
        exact ⟨.refl _, hinv, fun _ => hnot _ _ nofun nofun⟩
      | yes =>
        have hadmitted := hallowed.resolve_left (by rw [hx]; nofun)
        simp only [serve, hx, applyStripeSubscription_result]
        cases hany : d'.ledger.any fun row => row.eventID = e.id with
        | true =>
          rw [applyStripeSubscription_old hany]
          have hledger : ∃ row ∈ d'.ledger, row.eventID = e.id := by
            simpa [any_eq_true] using hany
          exact ⟨.refl _, hinv, fun _ => acknowledged_of_ledger hledger⟩
        | false =>
          obtain ⟨hgrown, hkept, hstored, hledger⟩ := deliver_recorded hs hinv hadmitted hany
          exact ⟨hgrown, hkept, fun _ => storeRest_ensures hstored hledger⟩
      | lost =>
        have hadmitted := hallowed.resolve_left (by rw [hx]; nofun)
        simp only [serve, hx]
        cases hany : d'.ledger.any fun row => row.eventID = e.id with
        | true =>
          rw [applyStripeSubscription_old hany]
          exact ⟨.refl _, hinv, fun _ => hnot _ _ nofun nofun⟩
        | false =>
          obtain ⟨hgrown, hkept, -⟩ := deliver_recorded hs hinv hadmitted hany
          exact ⟨hgrown, hkept, fun _ => hnot _ _ nofun nofun⟩

theorem fix_applied {eventID eventType organizationID : String} {a : Application}
    (h : Applied prices init d)
    (hadmitted : admitted prices d (.apply eventID eventType none organizationID a) = true) :
    let d' := (d.applyStripeSubscription eventID eventType none organizationID a).1
    Grows d d' ∧ Applied prices init d' := by
  cases hany : d.ledger.any fun row => row.eventID = eventID with
  | true =>
    rw [applyStripeSubscription_old hany]
    exact ⟨.refl _, h⟩
  | false =>
    have hrecorded : Recorded d eventID eventType none organizationID a _ :=
      applyStripeSubscription_new hany
    refine ⟨hrecorded.grows, h.fix hrecorded fun hne o hget => ?_⟩
    simpa [admitted, hany, hne, hget] using hadmitted

theorem applyReconciledSubscription_ensures (organizationID : String) (o : Organization)
    (fetched : FetchedSubscription) (stamp : String) (d : Database) (failed : Bool)
    {Q : Bool → Database → Unit → Prop} (hQ : ∀ failed d, Q failed d ()) :
    (growth prices init).Ensures n .reconcile Q
      (applyReconciledSubscription organizationID o fetched stamp) failed d := by
  unfold applyReconciledSubscription
  split
  · exact fun _ _ => hQ ..
  · refine ensures_ask fun d' x _ hinv _ => ⟨.refl _, hinv, fun failed' => ?_⟩
    cases (serve d' x (.entitlement organizationID)).2 with
    | none => exact fun _ _ => hQ ..
    | some current =>
      show (growth prices init).Ensures n .reconcile Q (if _ then _ else _) failed' d'
      split
      · exact fun _ _ => hQ ..
      · refine ensures_ask fun d'' y _ hinv' hallowed => ?_
        cases hy : y.happens with
        | fails =>
          simp only [serve, hy]
          exact ⟨.refl _, hinv', fun _ _ _ => hQ ..⟩
        | yes | lost =>
          obtain ⟨hgrown, hkept⟩ := fix_applied hinv' (hallowed.resolve_left (by rw [hy]; nofun))
          simp only [serve, hy]
          exact ⟨hgrown, hkept, fun _ _ _ => hQ ..⟩

theorem reconcileOrganizations_ensures (organizations : List (String × Organization))
    (d : Database) (failed : Bool) :
    (growth prices init).Ensures n .reconcile (fun _ _ _ => True)
      (reconcileOrganizations organizations) failed d := by
  induction organizations generalizing d failed with
  | nil => exact fun _ _ => trivial
  | cons entry rest ih =>
    obtain ⟨organizationID, o⟩ := entry
    refine ensures_ask fun d' x _ hinv _ => ⟨.refl _, hinv, fun failed' => ?_⟩
    cases (serve d' x (.getSubscription o.terms.stripeSubscriptionID)).2 with
    | none => exact ih d' failed'
    | some reply =>
      obtain ⟨fetched, stamp⟩ := reply
      show (growth prices init).Ensures n .reconcile (fun _ _ _ => True)
        (applyReconciledSubscription organizationID o fetched stamp >>= fun _ =>
          reconcileOrganizations rest) failed' d'
      exact Growth.Ensures.bind (applyReconciledSubscription_ensures organizationID o fetched stamp
        d' failed' fun failed d => ih d failed)

theorem unprocessed_nil (h : Applied prices init d) (x : Choice) :
    (serve d x .unprocessed).2 = [] := by
  simp only [serve]
  split
  · have hnone : (d.ledger.take x.old).filter (fun row => !row.processed) = [] := by
      rw [filter_eq_nil_iff]
      intro row hrow
      simp [h.processed row (mem_of_mem_take hrow)]
    rw [hnone, take_nil]
  · rfl

theorem reconcile_ensures (start d : Database) :
    (growth prices init).Ensures n .reconcile (Acknowledged .reconcile start)
      (program prices .reconcile) failed d := by
  refine ensures_ask fun d' x _ hinv _ => ⟨.refl _, hinv, fun failed' => ?_⟩
  rw [unprocessed_nil hinv]
  refine ensures_ask fun d'' y _ hinv' _ => ⟨.refl _, hinv', fun failed'' => ?_⟩
  apply Growth.Ensures.map
  exact reconcileOrganizations_ensures _ d'' failed''

theorem program_ensures (op : Op) (start d : Database) :
    (growth prices init).Ensures n op (Acknowledged op start) (program prices op) failed d := by
  cases op with
  | deliver e => exact deliver_ensures e start d
  | reconcile => exact reconcile_ensures start d

end Calls

/-- The organization carries what the event gives: plan, status, limits, seats and extras. Storage
may stay above it for an organization from before the quota revision that keeps its plan, and an
event that names no seats leaves them. -/
structure Carries (prices : Prices) (type : String) (s : StripeSubscription) (o : Organization) :
    Prop where
  plan : o.terms.plan = (resolveSubscriptionLimits s.metadata).1
  status : o.terms.status = eventStatus type s
  machines : o.terms.maxMachines = (eventApplication type s).limits.2
  storage : o.terms.maxStorageBytes = (eventApplication type s).limits.1 ∨
    o.createdAt < quotaRevisionDate ∧ statusActive (eventStatus type s) = true ∧
      (eventApplication type s).limits.1 ≤ o.terms.maxStorageBytes
  seats : (eventSeats prices s).2 > 0 → o.extras.seats = (eventSeats prices s).2
  interval : o.extras.interval =
    if (eventExtras s).interval ≠ "month" ∧ (eventExtras s).interval ≠ "year" then "month"
    else (eventExtras s).interval
  seatsIncluded : o.extras.seatsIncluded = (eventExtras s).seatsIncluded
  sourceGuard : o.extras.sourceGuard = (eventExtras s).sourceGuard
  failover : o.extras.failover = (eventExtras s).failover
  overageCap : o.extras.overageCapCents = (eventExtras s).overageCapCents
  trial : statusActive (eventStatus type s) = true → o.extras.trialExpiresAt = none

theorem carries_applySubscription (type : String) (s : StripeSubscription) (o : Organization) :
    Carries prices type s (applySubscription prices type s o) where
  plan := rfl
  status := rfl
  machines := rfl
  storage := by
    simp only [applySubscription, Terms.apply]
    split
    · rename_i hfloors
      simp only [Application.floors, Bool.and_eq_true, decide_eq_true_eq] at hfloors
      exact .inr ⟨hfloors.1.1.1, hfloors.1.1.2, le_max_right ..⟩
    · exact .inl rfl
  seats h := by
    show (storeSeats prices s o.extras).seats = _
    rw [storeSeats, if_pos h]
    rfl
  interval := rfl
  seatsIncluded := rfl
  sourceGuard := rfl
  failover := rfl
  overageCap := rfl
  trial h := by
    show (if _ then _ else _) = _
    rw [if_pos h]

structure AllOrNothing (prices : Prices) (init : FileTable Organization) (q : Calls) : Prop where
  /-- The organization is what its recorded events make of it, one after another. -/
  rows : ∀ organizationID o, organizationID ≠ "" →
    q.shared.organizations.get organizationID = some o →
    ∃ o₀, init.get organizationID = some o₀ ∧
      o = (recorded q.shared organizationID).foldl (applied prices) o₀
  /-- It carries all that a newest recorded event gives. -/
  newest : ∀ organizationID o, organizationID ≠ "" →
    q.shared.organizations.get organizationID = some o →
    recorded q.shared organizationID ≠ [] →
    ∃ e ∈ recorded q.shared organizationID, ∃ s, e.subscription = some s ∧
      (∀ e' ∈ recorded q.shared organizationID, e'.created ≤ e.created) ∧
      Carries prices e.type s o
  /-- An event that was acknowledged is recorded, and marked as processed. -/
  acknowledged : ∀ n e a, q.op n = some (.deliver e) → .answer n a ∈ q.history →
    a = .processed ∨ a = .duplicate →
    ∃ row ∈ q.shared.ledger, row.eventID = e.id ∧ row.processed = true

theorem subscription_of_recorded {d : Database} {organizationID : String}
    (h : e ∈ recorded d organizationID) (hne : organizationID ≠ "") :
    ∃ s, e.subscription = some s := by
  obtain ⟨row, -, hpayload⟩ := mem_filterMap.mp h
  obtain ⟨-, horganization⟩ := Option.filter_eq_some_iff.mp hpayload
  cases hs : e.subscription with
  | some s => exact ⟨s, rfl⟩
  | none =>
    have hempty : "" = organizationID := by simpa [eventOrganization, hs] using horganization
    exact absurd hempty.symm hne

namespace Sample

def organizations : FileTable Organization :=
  FileTable.empty.set "o" ⟨1800000000, ⟨"free", "active", 10 * gib, 2, "", "", false⟩,
    ⟨0, "", "month", 0, false, false, 0, none⟩⟩

def event (id type : String) (created : Int) (metadata : Metadata) : StripeEvent :=
  ⟨id, type, created, some ⟨"sub", "cus", "active", ("organization_id", "o") :: metadata, []⟩⟩

def pro : StripeEvent := event "e1" "customer.subscription.created" 1 [("plan", "pro")]

def business : StripeEvent :=
  event "e2" "customer.subscription.updated" 2 [("plan", "business"), ("seats", "7")]

def canceled : StripeEvent := event "e3" "customer.subscription.deleted" 3 [("plan", "pro")]

def choice (happens : Happens) : Choice := ⟨happens, 10, none⟩

def overtaken : List (Move Op Choice) :=
  [.call (.deliver business), .advance 0 (choice .yes), .advance 0 (choice .yes),
    .advance 0 (choice .yes), .finish 0, .call (.deliver pro), .advance 1 (choice .yes),
    .advance 1 (choice .yes), .finish 1]

def seatless : List (Move Op Choice) :=
  [.call (.deliver business), .advance 0 (choice .yes), .advance 0 (choice .fails),
    .advance 0 (choice .yes), .finish 0, .call (.deliver business), .advance 1 (choice .yes),
    .finish 1]

def inOrder : List (Move Op Choice) :=
  [.call (.deliver pro), .advance 0 (choice .lost), .crash, .call (.deliver pro),
    .call (.deliver canceled), .advance 1 (choice .yes), .advance 2 (choice .yes), .finish 1,
    .call .reconcile, .advance 3 (choice .yes), .advance 3 (choice .yes), .advance 3 (choice .yes),
    .finish 3, .advance 2 (choice .fails), .finish 2]

end Sample

end Shiftgate.Billing
