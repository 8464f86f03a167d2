import Mathlib.Data.List.DropRight

/-! Which agent URLs a machine may register: `internal/endpoint/url.go` and the host checks of
`internal/controlplane/machines_routes.go`. -/

namespace Shiftgate.Machines

abbrev Checked := Except String

/-- `url.URL`; `user` is whether it has credentials. -/
structure URL where
  scheme : String
  user : Bool
  host : String
  path : String
  rawQuery : String
  fragment : String

abbrev IP := BitVec 128

def trimDot (s : String) : String :=
  if s.toList.getLast? = some '.' then String.ofList s.toList.dropLast else s

/-- `net`, `net/url` and `strings`. `parseAddr` is the reading of a host that a dialer makes before
it asks for a name: the address and the zone, empty when there is none. -/
structure Net where
  parse : String → Option URL
  string : URL → String
  hostname : String → String
  port : String → String
  trimSpace : String → String
  toLower : String → String
  parseAddr : String → Option (IP × String)
  parseCIDR : String → Option (IP → Bool)
  /-- Spaces, a dot at the end and capital letters change no address. -/
  parseAddr_canonical : ∀ host ip, parseAddr host = some (ip, "") →
    parseAddr (toLower (trimDot (trimSpace host))) = some (ip, "")

def invalid {α : Type} (message : String) : Checked α :=
  .error ("invalid remote peer endpoint: " ++ message)

def portNumber (port : List Char) : Nat :=
  port.foldl (fun n digit => 10 * n + (digit.toNat - '0'.toNat)) 0

def validatePortNumber (port : List Char) : Checked Unit :=
  if port = [] then invalid "port is empty"
  else if !port.all Char.isDigit then invalid "port is invalid"
  else if portNumber port < 1 ∨ portNumber port > 65535 then
    invalid ("port \"" ++ String.ofList port ++ "\" is outside 1-65535")
  else .ok ()

def validateExplicitPort (host : List Char) : Checked Unit :=
  if host.head? = some '[' then
    match host.dropWhile (· ≠ ']') with
    | [] => invalid "IPv6 literal is not closed"
    | [_] => .ok ()
    | _ :: ':' :: port => validatePortNumber port
    | _ => invalid "port is invalid"
  else
    match host.count ':' with
    | 0 => .ok ()
    | 1 => validatePortNumber (host.dropWhile (· ≠ ':')).tail
    | _ => invalid "IPv6 literals must be written in brackets"

def metadataAgentHosts : List String :=
  ["metadata", "metadata.google.internal", "metadata.goog", "metadata.tencentyun.com",
    "instance-data", "instance-data.ec2.internal"]

/-- The blocked networks of `w` bits: an address and the length of its leading part. -/
abbrev Networks (w : Nat) := List (BitVec w × Nat)

def Networks.contain {w : Nat} (networks : Networks w) (ip : BitVec w) : Bool :=
  networks.any fun (base, bits) => ip >>> (w - bits) = base >>> (w - bits)

def blockedIPv4 : Networks 32 :=
  [(0x00000000, 8), (0x0a000000, 8), (0x64400000, 10), (0x7f000000, 8), (0xa9fe0000, 16),
    (0xac100000, 12), (0xc0000000, 24), (0xc0a80000, 16), (0xc6120000, 15), (0xe0000000, 4),
    (0xf0000000, 4)]

def blockedIPv6 : Networks 128 :=
  [(0, 128), (1, 128), (0xfc <<< 120, 7), (0xfe80 <<< 112, 10), (0xff <<< 120, 8)]

def isBlockedAgentIP (ip : IP) : Bool :=
  if ip >>> 32 = 0xffff then blockedIPv4.contain (ip.setWidth 32) else blockedIPv6.contain ip

variable (net : Net) (allowlist : List String)

def parse (raw : String) : Checked URL := do
  let value := net.trimSpace raw
  if value = "" then invalid "endpoint is empty"
  let some parsed := net.parse value | invalid "endpoint must use https:// with a host"
  if parsed.scheme ≠ "https" ∨ parsed.host = "" then
    invalid "endpoint must use https:// with a host"
  if parsed.user ∨ parsed.rawQuery ≠ "" ∨ parsed.fragment ≠ "" then
    invalid "endpoint cannot contain credentials, query, or fragment"
  if parsed.path ≠ "" ∧ parsed.path ≠ "/" then invalid "endpoint cannot contain a path"
  if net.hostname parsed.host = "" then invalid "hostname is required"
  if ' ' ∈ (net.hostname parsed.host).toList then invalid "hostname contains whitespace"
  validateExplicitPort parsed.host.toList
  return { parsed with path := "" }

def normalize (raw : String) : Checked String := do
  let parsed ← parse net raw
  return String.ofList ((net.string parsed).toList.rdropWhile (· = '/'))

def parseIP (host : String) : Option IP :=
  (net.parseAddr host).bind fun (ip, zone) => if zone = "" then some ip else none

def agentURLHostAllowed (host : String) : Bool :=
  allowlist.any fun entry =>
    let entry := net.toLower (net.trimSpace entry)
    entry ≠ "" && (entry == host ||
      match net.parseCIDR entry with
      | some contains => (parseIP net host).any contains
      | none => (parseIP net entry).any fun ip => parseIP net host = some ip)

def canonical (host : String) : String := net.toLower (trimDot (net.trimSpace host))

def validateAgentHost (host : String) : Checked Unit :=
  let normalized := canonical net host
  if agentURLHostAllowed net allowlist normalized then .ok ()
  else if normalized ∈ metadataAgentHosts then
    .error "agent URL host is a cloud metadata endpoint"
  else if (parseIP net normalized).any isBlockedAgentIP then
    .error "agent URL host is a link-local, loopback, private, or otherwise reserved address"
  else .ok ()

def normalizeAgentURL (raw : String) : Checked String := do
  let normalized ← normalize net raw
  let some parsed := net.parse normalized | .error "agent URL is invalid"
  let host := net.hostname parsed.host
  if host = "" then .error "agent URL host is required"
  let port := (net.port parsed.host).toList
  if port ≠ [] ∧ (portNumber port < 1 ∨ portNumber port > 65535) then
    .error "agent URL port must be between 1 and 65535"
  validateAgentHost net allowlist host
  return normalized

variable {net allowlist}

theorem validateAgentHost_ok {host : String} {ip : IP}
    (h : validateAgentHost net allowlist host = .ok ())
    (hlisted : agentURLHostAllowed net allowlist (canonical net host) = false)
    (haddr : net.parseAddr host = some (ip, "")) : isBlockedAgentIP ip = false := by
  have hip : parseIP net (canonical net host) = some ip := by
    simp [parseIP, canonical, net.parseAddr_canonical host ip haddr]
  simp only [validateAgentHost, hlisted, Bool.false_eq_true, if_false, hip, Option.any_some] at h
  split_ifs at h with _ hblocked
  exact eq_false_of_ne_true hblocked

theorem normalizeAgentURL_ok {raw normalized : String}
    (h : normalizeAgentURL net allowlist raw = .ok normalized) :
    ∃ parsed, net.parse normalized = some parsed ∧
      validateAgentHost net allowlist (net.hostname parsed.host) = .ok () := by
  simp only [normalizeAgentURL, bind, Except.bind] at h
  split at h
  · cases h
  · split at h
    · rename_i parsed hparsed
      split_ifs at h
      split at h
      · cases h
      · cases h
        exact ⟨parsed, hparsed, ‹_›⟩
    · cases h

namespace Sample

def zoned : String := "https://[fe80::1%25eth0]:8443"

def plain : String := "https://agent.example"

def linkLocal : IP := 0xfe80 <<< 112 + 1

def go : Net where
  parse s := some ⟨"https", false, if s = zoned then "[fe80::1%eth0]:8443" else "agent.example",
    "", "", ""⟩
  string u := if u.host = "agent.example" then plain else zoned
  hostname host := if host = "agent.example" then host else "fe80::1%eth0"
  port host := if host = "agent.example" then "" else "8443"
  trimSpace s := s
  toLower s := s
  parseAddr host := if host = "fe80::1%eth0" then some (linkLocal, "eth0") else none
  parseCIDR _ := none
  parseAddr_canonical host ip h := by
    split_ifs at h
    simp at h

end Sample

end Shiftgate.Machines
