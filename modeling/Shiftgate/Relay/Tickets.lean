import Shiftgate.Library.Runs

/-! Relay tickets: what a token says (`internal/relay/protocol.go`), and the two stores in which its
legs are claimed and it is burned (`internal/database/relay_tickets.go`,
`internal/relay/legstore.go`). Times are in seconds. -/

namespace Shiftgate.Relay

structure TicketClaims where
  organizationID : String
  sourceMachineID : String
  destinationMachineID : String
  migrationID : String
  nonce : String
  expiresUnix : Nat
  workloadID : String
  audience : String
  deriving DecidableEq

def validClaims (now : Nat) (c : TicketClaims) : Bool :=
  c.organizationID ≠ "" && c.sourceMachineID ≠ "" && c.destinationMachineID ≠ "" &&
    c.sourceMachineID ≠ c.destinationMachineID && c.migrationID ≠ "" && c.nonce ≠ "" &&
    now < c.expiresUnix && c.expiresUnix ≤ now + 600

/-- What a token decodes to, and whether it has the signature of the relay's key. `tokenHash` is
SHA-256. -/
structure Codec where
  parse : String → Option TicketClaims
  signed : String → Bool
  tokenHash : String → String

def Codec.decode (codec : Codec) (now : Nat) (token : String) : Option TicketClaims :=
  (codec.parse token).filter (validClaims now)

def Codec.verify (codec : Codec) (now : Nat) (token : String) : Option TicketClaims :=
  if codec.signed token then codec.decode now token else none

inductive Leg where
  | source
  | destination

def TicketClaims.leg (c : TicketClaims) (machine : String) : Leg :=
  if machine = c.destinationMachineID then .destination else .source

inductive TicketState where
  | issued
  | consumed
  | expired
  deriving DecidableEq

structure Ticket where
  tokenHash : String
  organizationID : String
  migrationID : String
  sourceMachineID : String
  destinationMachineID : String
  expiresAt : Nat
  state : TicketState
  relayID : String
  sourceClaimedAt : Option Nat
  destinationClaimedAt : Option Nat
  consumedAt : Option Nat

def Ticket.claimedAt (ticket : Ticket) : Leg → Option Nat
  | .source => ticket.sourceClaimedAt
  | .destination => ticket.destinationClaimedAt

def Ticket.stamp (ticket : Ticket) (now : Nat) : Leg → Ticket
  | .source => { ticket with sourceClaimedAt := ticket.sourceClaimedAt.or (some now) }
  | .destination =>
    { ticket with destinationClaimedAt := ticket.destinationClaimedAt.or (some now) }

def TicketClaims.ticket (c : TicketClaims) (tokenHash : String) : Ticket :=
  { tokenHash, organizationID := c.organizationID, migrationID := c.migrationID,
    sourceMachineID := c.sourceMachineID, destinationMachineID := c.destinationMachineID,
    expiresAt := c.expiresUnix, state := .issued, relayID := "", sourceClaimedAt := none,
    destinationClaimedAt := none, consumedAt := none }

abbrev Tickets := String → Option Ticket

def Tickets.put (tickets : Tickets) (nonce : String) (ticket : Ticket) : Tickets :=
  Function.update tickets nonce (some ticket)

def twoMinutes : Nat := 120

/-- A leg that has been claimed may be claimed again for two minutes. -/
def Ticket.claim (ticket : Ticket) (c : TicketClaims) (tokenHash : String) (leg : Leg)
    (relayID : String) (now : Nat) : Option Ticket :=
  if ticket.state = .issued ∧ ticket.tokenHash = tokenHash ∧
      ticket.organizationID = c.organizationID ∧ ticket.migrationID = c.migrationID ∧
      ticket.sourceMachineID = c.sourceMachineID ∧
      ticket.destinationMachineID = c.destinationMachineID ∧ now < ticket.expiresAt ∧
      (ticket.claimedAt leg).all (now < · + twoMinutes) then
    some { ticket.stamp now leg with relayID }
  else none

def claimRow (tickets : Tickets) (c : TicketClaims) (tokenHash machine relayID : String)
    (now : Nat) : Option Tickets := do
  let ticket ← tickets c.nonce
  let claimed ← ticket.claim c tokenHash (c.leg machine) relayID now
  return tickets.put c.nonce claimed

def claimRecord (codec : Codec) (tickets : Tickets) (c : TicketClaims)
    (token machine relayID : String) (now : Nat) : Option Tickets :=
  if codec.decode now token = some c then do
    let ticket := (tickets c.nonce).getD (c.ticket (codec.tokenHash token))
    let claimed ← ticket.claim c (codec.tokenHash token) (c.leg machine) relayID now
    return tickets.put c.nonce claimed
  else none

def Ticket.consume (ticket : Ticket) (relayID : String) (now : Nat) : Ticket :=
  { ticket with state := .consumed, consumedAt := some now, relayID }

def consumeRow (tickets : Tickets) (nonce tokenHash relayID : String) (now : Nat) :
    Option Tickets := do
  let ticket ← tickets nonce
  if ticket.state = .issued ∧ ticket.tokenHash = tokenHash ∧ now < ticket.expiresAt then
    some (tickets.put nonce (ticket.consume relayID now))
  else none

def consumeRecord (tickets : Tickets) (nonce tokenHash relayID : String) (now : Nat) :
    Option Tickets := do
  let ticket ← tickets nonce
  if ticket.state = .issued ∧ ticket.tokenHash = tokenHash then
    some (tickets.put nonce (ticket.consume relayID now))
  else none

/-- `CreateRelayTicket`. The machines are those of the migration's row, if there is one, and a nonce
is unique. -/
def createRelayTicket (tickets : Tickets) (c : TicketClaims) (tokenHash : String)
    (machines : Option (String × String)) (now : Nat) : Option Tickets :=
  if c.organizationID = "" ∨ c.migrationID = "" ∨ c.sourceMachineID = "" ∨
      c.destinationMachineID = "" ∨ c.nonce = "" ∨ tokenHash = "" then none
  else if c.expiresUnix ≤ now then none
  else do
    let (sourceMachineID, destinationMachineID) ← machines
    if (tickets c.nonce).isNone then
      let ticket := { c.ticket tokenHash with sourceMachineID, destinationMachineID }
      some (tickets.put c.nonce ticket)
    else none

def expireTickets (tickets : Tickets) (p : Ticket → Bool) : Tickets := fun nonce =>
  (tickets nonce).map fun ticket =>
    if p ticket ∧ ticket.state = .issued then { ticket with state := .expired } else ticket

def revokeExpiredRelayTickets (tickets : Tickets) (now : Nat) : Tickets :=
  expireTickets tickets fun ticket => ticket.expiresAt ≤ now

def revokeRelayTicketsForMigration (tickets : Tickets) (migrationID : String) : Tickets :=
  expireTickets tickets fun ticket => ticket.migrationID = migrationID

variable {tickets tickets' : Tickets} {nonce tokenHash relayID machine token : String} {now : Nat}
  {c : TicketClaims} {ticket ticket' : Ticket} {leg : Leg} {codec : Codec}

@[simp] theorem Tickets.put_same : tickets.put nonce ticket nonce = some ticket := by
  simp [Tickets.put]

theorem Tickets.put_other {other : String} (h : other ≠ nonce) :
    tickets.put nonce ticket other = tickets other := by
  simp [Tickets.put, h]

end Shiftgate.Relay
