import OpenShell.Sandbox.PolicyData
import OpenShell.Sandbox.Proxy

namespace OpenShell.Sandbox

open Text Net Streams

/-! Where the connections of the proxy may lead. -/

namespace Proxy

variable (proxy : Proxy)

def allowedIps (destination : Destination) : List String :=
  queryAllowedIps proxy.engine (proxy.decision destination.host destination.port)
    (String.ofList (toAsciiLowercase destination.host)) destination.port

def rawAllowedIps (destination : Destination) : List String :=
  Dialer.rawAllowedIps proxy.engine (proxy.decision destination.host destination.port)
    (String.ofList destination.host) (String.ofList (toAsciiLowercase destination.host)) destination.port

variable {proxy} {client : ByteStream} {destination : Destination} {addrs : List SocketAddr} {link : Link}

/-- The policy allows the connection. -/
def Allows (proxy : Proxy) (destination : Destination) : Prop :=
  ∃ matchedPolicy, (proxy.decision destination.host destination.port).action = .allow matchedPolicy

/-- A connection is dialled for an allowed destination, at the addresses that passed the check. -/
structure Dials (proxy : Proxy) (destination : Destination) (addrs : List SocketAddr) : Prop where
  allowed : proxy.Allows destination
  resolved : proxy.resolveUpstream (proxy.decision destination.host destination.port) destination.host
    destination.port = .ok addrs

theorem dials_of_connect {target : List Char}
    (ran : proxy.handleConnect target client = .dialled destination addrs link) : proxy.Dials destination addrs := by
  unfold handleConnect at ran
  split at ran
  · cases ran
  · split at ran
    · cases ran
    · simp only at ran
      split at ran
      · cases ran
      · rename_i matchedPolicy allowed
        split at ran
        · cases ran
        · rename_i resolved
          cases ran
          exact ⟨⟨matchedPolicy, allowed⟩, resolved⟩

theorem dials_of_forward {method targetUri : List Char} {buf : List UInt8}
    (ran : proxy.handleForwardProxy method targetUri buf client = .dialled destination addrs link) :
    proxy.Dials destination addrs := by
  unfold handleForwardProxy at ran
  split at ran
  · cases ran
  · split at ran
    · cases ran
    · simp only at ran
      split at ran
      · cases ran
      · rename_i matchedPolicy allowed
        split at ran
        · cases ran
        · split at ran
          · cases ran
          · rename_i resolved
            cases ran
            exact ⟨⟨matchedPolicy, allowed⟩, resolved⟩

theorem dials_of_connection (ran : proxy.handleTcpConnection client = .dialled destination addrs link) :
    proxy.Dials destination addrs := by
  unfold handleTcpConnection at ran
  split at ran
  · cases ran
  · cases ran
  · cases ran
  · simp only at ran
    split at ran
    · exact dials_of_connect ran
    · exact dials_of_forward ran

theorem rawAllowedIps_eq_nil : proxy.rawAllowedIps destination = [] ↔
    proxy.allowedIps destination = [] ∧ IpAddr.parse destination.host = none := by
  unfold rawAllowedIps Dialer.rawAllowedIps allowedIps implicitAllowedIpsForIpHost
  rw [String.toList_ofList]
  cases queryAllowedIps proxy.engine (proxy.decision destination.host destination.port)
      (String.ofList (toAsciiLowercase destination.host)) destination.port with
  | nil => cases IpAddr.parse destination.host <;> simp
  | cons entry entries => simp

/-- Whatever the policy, the request and the answers of the lookup, only addresses from the lookup are dialled,
    none of them inside the sandbox's own host or link, and private ones only from an allowlist. -/
theorem dialled_vetted (ran : proxy.handleTcpConnection client = .dialled destination addrs link) :
    (∃ found, proxy.dialer.lookupHost (String.ofList destination.host) destination.port = .ok found ∧
        ∀ addr ∈ addrs, addr ∈ found) ∧
      (∀ addr ∈ addrs, ¬ UnsafeIp addr.ip) ∧
      (proxy.allowedIps destination = [] → IpAddr.parse destination.host = none →
        ∀ addr ∈ addrs, ¬ PrivateIp addr.ip) ∧
      (proxy.rawAllowedIps destination ≠ [] → destination.port ∉ blockedControlPlanePorts ∧
        ∃ nets, proxy.dialer.parseAllowedIps (proxy.rawAllowedIps destination) = .ok nets ∧
          ∀ addr ∈ addrs, ∃ net ∈ nets, proxy.dialer.nets.contains net addr.ip = true) := by
  have vetted := Dialer.vetted_of_resolveUpstream (dials_of_connection ran).resolved
  refine ⟨⟨addrs, vetted.looked, fun addr member => member⟩, vetted.safe, ?_, vetted.listed⟩
  intro unlisted named
  exact vetted.abroad (rawAllowedIps_eq_nil.mpr ⟨unlisted, named⟩)

end Proxy

/-! Private addresses. -/

/-- A bare address is not in CIDR notation, and the network made of it holds that address alone. -/
structure IpNets.Lawful (nets : IpNets) : Prop where
  parse_bare : ∀ text ip, IpAddr.parse text = some ip → nets.parse text = none
  contains_ofAddr : ∀ addr ip, nets.contains (nets.ofAddr addr) ip = true ↔ ip = addr

/-- The endpoint has the address as its host, or lists a network with it. -/
def EndpointData.Declares (dialer : Dialer) (endpoint : EndpointData) (ip : IpAddr) : Prop :=
  (∃ host, endpoint.host = some host ∧ IpAddr.parse host.toList = some ip) ∨
    ∃ entry ∈ endpoint.allowedIps, ∃ net, dialer.parseAllowedIp entry = some net ∧
      dialer.nets.contains net ip = true

namespace Proxy

variable (proxy : Proxy)

def input (destination : Destination) : NetworkInput :=
  (proxy.decision destination.host destination.port).input (String.ofList (toAsciiLowercase destination.host))
    destination.port

/-- Some endpoint of a policy that matches the connection declares the address. -/
def Declared (destination : Destination) (ip : IpAddr) : Prop :=
  ∃ entry ∈ proxy.engine.networkPolicies.entries,
    proxy.engine.policyMatches (proxy.input destination) entry.2 = true ∧
      ∃ endpoint ∈ entry.2.endpoints, endpoint.Declares proxy.dialer ip

variable {proxy} {client : ByteStream} {destination : Destination} {addrs : List SocketAddr} {link : Link}

/-- What the allowlist of the deciding endpoint holds is declared by that endpoint. -/
theorem declared_of_allowedIps {entry : String} {net : proxy.dialer.nets.IpNet} {ip : IpAddr}
    (listed : entry ∈ proxy.allowedIps destination) (parsed : proxy.dialer.parseAllowedIp entry = some net)
    (inside : proxy.dialer.nets.contains net ip = true) : proxy.Declared destination ip := by
  unfold allowedIps queryAllowedIps at listed
  split at listed
  · split at listed
    · rename_i endpoint answered
      obtain ⟨name, policy, deciding⟩ := deciding_of_query answered
      exact ⟨(name, policy), deciding.stored, deciding.matched, endpoint, deciding.mem_endpoints,
        .inr ⟨entry, listed, net, parsed, inside⟩⟩
    · cases listed
  · cases listed

/-- With no allowlist and an address for a host, that address is dialled and no other. -/
theorem ip_of_implicit (lawful : proxy.dialer.nets.Lawful) {ip : IpAddr} (unlisted : proxy.allowedIps destination = [])
    (literal : IpAddr.parse destination.host = some ip) (dials : proxy.Dials destination addrs) :
    ∀ addr ∈ addrs, addr.ip = ip := by
  have vetted := Dialer.vetted_of_resolveUpstream dials.resolved
  have raw : proxy.rawAllowedIps destination = [String.ofList destination.host] := by
    unfold allowedIps at unlisted
    unfold rawAllowedIps Dialer.rawAllowedIps implicitAllowedIpsForIpHost
    rw [unlisted, String.toList_ofList, literal]
    rfl
  obtain ⟨_, nets, parsed, inside⟩ := vetted.listed (by
    show proxy.rawAllowedIps destination ≠ []
    rw [raw]
    exact List.cons_ne_nil _ _)
  have entry : proxy.dialer.parseAllowedIp (String.ofList destination.host) = some (proxy.dialer.nets.ofAddr ip) := by
    unfold Dialer.parseAllowedIp
    rw [String.toList_ofList, lawful.parse_bare _ _ literal, literal]
    rfl
  have only : nets = [proxy.dialer.nets.ofAddr ip] := by
    rw [← (Dialer.parseAllowedIps_eq_ok.mp parsed).2]
    show (proxy.rawAllowedIps destination).filterMap proxy.dialer.parseAllowedIp = _
    rw [raw, List.filterMap_cons_some entry, List.filterMap_nil]
  intro addr member
  obtain ⟨net, listed, holds⟩ := inside addr member
  rw [only, List.mem_singleton] at listed
  rw [listed, lawful.contains_ofAddr] at holds
  exact holds

theorem declared_of_listed (listed : proxy.allowedIps destination ≠ []) (dials : proxy.Dials destination addrs) :
    ∀ addr ∈ addrs, proxy.Declared destination addr.ip := by
  have vetted := Dialer.vetted_of_resolveUpstream dials.resolved
  have raw : proxy.rawAllowedIps destination = proxy.allowedIps destination := by
    unfold rawAllowedIps Dialer.rawAllowedIps
    simp only
    rw [if_neg (by rw [List.isEmpty_iff]; exact listed)]
    rfl
  have filled : proxy.rawAllowedIps destination ≠ [] := by
    rw [raw]
    exact listed
  obtain ⟨_, nets, parsed, inside⟩ := vetted.listed filled
  intro addr member
  obtain ⟨net, held, holds⟩ := inside addr member
  rw [← (Dialer.parseAllowedIps_eq_ok.mp parsed).2] at held
  obtain ⟨entry, entryIn, read⟩ := List.mem_filterMap.mp held
  have entryListed : entry ∈ proxy.allowedIps destination := by
    rw [← raw]
    exact entryIn
  exact declared_of_allowedIps entryListed read holds

/-- The private addresses that are dialled are declared exactly when this is so of a host that is an address and
    stands in for a missing allowlist. -/
theorem private_declared_iff (lawful : proxy.dialer.nets.Lawful)
    (ran : proxy.handleTcpConnection client = .dialled destination addrs link) :
    (∀ addr ∈ addrs, PrivateIp addr.ip → proxy.Declared destination addr.ip) ↔
      ∀ ip, proxy.allowedIps destination = [] → IpAddr.parse destination.host = some ip → PrivateIp ip →
        proxy.Declared destination ip := by
  have dials := dials_of_connection ran
  have vetted := Dialer.vetted_of_resolveUpstream dials.resolved
  constructor
  · intro declared ip unlisted literal inside
    have same := ip_of_implicit lawful unlisted literal dials
    obtain ⟨addr, member⟩ := List.exists_mem_of_ne_nil _ vetted.filled
    rw [← same addr member] at inside ⊢
    exact declared addr member inside
  · intro condition addr member inside
    by_cases unlisted : proxy.allowedIps destination = []
    · cases literal : IpAddr.parse destination.host with
      | none =>
        have empty := rawAllowedIps_eq_nil.mpr ⟨unlisted, literal⟩
        exact absurd inside (vetted.abroad empty addr member)
      | some ip =>
        rw [ip_of_implicit lawful unlisted literal dials addr member] at inside ⊢
        exact condition ip unlisted literal inside
    · exact declared_of_listed unlisted dials addr member

end Proxy

section Example

/-- A network is one address. -/
def bareNets : IpNets := ⟨IpAddr, fun _ => none, id, fun net ip => net == ip⟩

theorem bareNets_lawful : bareNets.Lawful where
  parse_bare _ _ _ := rfl
  contains_ofAddr addr ip := by
    show (addr == ip) = true ↔ ip = addr
    rw [beq_iff_eq, eq_comm]

/-- A star stands for one label of the name. -/
def labelGlob (pattern text : String) : Bool :=
  let labels := split '.' pattern.toList
  let parts := split '.' text.toList
  labels.length == parts.length && (labels.zip parts).all fun (label, part) => label == ['*'] || label == part

def labelBuiltins : Builtins := ⟨String.toLower, String.toUpper, fun pattern _ text => labelGlob pattern text⟩

def endpointDocument (host : String) (port : Nat) : Json :=
  .object [("network_policies", .object [("api", .object
    [("binaries", .array [.object [("path", .string "/usr/bin/curl")]]),
      ("endpoints", .array [.object [("host", .string host), ("port", .integer port)]])])])]

def endpointPolicies (host : String) (port : Nat) : PolicyObject where
  entries := [("api", ⟨[{ host := some host, ports := [port] }], ["/usr/bin/curl"]⟩)]
  sorted := by simp

def curlProxy (policies : PolicyObject) (ip : IpAddr) : Proxy where
  base64 := ⟨fun _ => none, fun _ => []⟩
  engine := ⟨labelBuiltins, policies⟩
  identity := .ok { binaryPath := "/usr/bin/curl" }
  dialer := ⟨bareNets, fun _ port => .ok [⟨ip, port⟩]⟩
  connect _ := .error "refused"

def connectTo (target : String) : List UInt8 := utf8Encode (("CONNECT " ++ target ++ " HTTP/1.1\r\n\r\n").toList)

def nameClient : ByteStream where
  segments := [connectTo "api.example:443"]
  nonempty := by decide +kernel
  bounded := by decide +kernel

def literalClient : ByteStream where
  segments := [connectTo "10.0.0.5:80"]
  nonempty := by decide +kernel
  bounded := by decide +kernel

def Outcome.dials : Outcome → Option (Destination × List SocketAddr)
  | .dialled destination addrs _ => some (destination, addrs)
  | _ => none

theorem dialled_of_dials {outcome : Outcome} {destination : Destination} {addrs : List SocketAddr}
    (dials : outcome.dials = some (destination, addrs)) : ∃ link, outcome = .dialled destination addrs link := by
  cases outcome with
  | dialled _ _ link =>
    cases dials
    exact ⟨link, rfl⟩
  | _ => cases dials

def publicIp : IpAddr := .v4 ⟨0x08080808⟩

def privateIp : IpAddr := .v4 ⟨0x0A000005⟩

/-- The clients of the examples are dialled for. -/
theorem clients_dial :
    ((curlProxy (endpointPolicies "api.example" 443) publicIp).handleTcpConnection nameClient).dials =
        some (⟨"api.example".toList, 443⟩, [⟨publicIp, 443⟩]) ∧
      ∀ host ∈ ["10.0.0.5", "*.0.0.5"],
        ((curlProxy (endpointPolicies host 80) privateIp).handleTcpConnection literalClient).dials =
          some (⟨"10.0.0.5".toList, 80⟩, [⟨privateIp, 80⟩]) := by
  decide +kernel

theorem nameClient_vetted :
    ∃ link, (curlProxy (endpointPolicies "api.example" 443) publicIp).handleTcpConnection nameClient =
        .dialled ⟨"api.example".toList, 443⟩ [⟨publicIp, 443⟩] link ∧
      ∀ addr ∈ [(⟨publicIp, 443⟩ : SocketAddr)], ¬ UnsafeIp addr.ip := by
  obtain ⟨link, ran⟩ := dialled_of_dials clients_dial.1
  exact ⟨link, ran, (Proxy.dialled_vetted ran).2.1⟩

theorem literalClient_dials (host : String) (tested : host = "10.0.0.5" ∨ host = "*.0.0.5") :
    ((curlProxy (endpointPolicies host 80) privateIp).handleTcpConnection literalClient).dials =
      some (⟨"10.0.0.5".toList, 80⟩, [⟨privateIp, 80⟩]) :=
  clients_dial.2 host (by simpa using tested)

theorem privateIp_private : PrivateIp privateIp := by
  left
  decide

theorem endpoint_declares {host : String} {port : Nat} {ip : IpAddr} {destination : Destination}
    (declared : (curlProxy (endpointPolicies host port) ip).Declared destination ip) :
    IpAddr.parse host.toList = some ip := by
  obtain ⟨entry, stored, _, endpoint, endpointIn, declares⟩ := declared
  cases List.mem_singleton.mp stored
  cases List.mem_singleton.mp endpointIn
  rcases declares with ⟨named, same, parsed⟩ | ⟨entry, listed, _⟩
  · cases same
    exact parsed
  · cases listed

/-- The policy names a pattern of hosts, and a private address that fits the pattern is dialled. -/
theorem globHost_undeclared :
    (validateL7Policies (normalizeEndpointPorts (endpointDocument "*.0.0.5" 80))).errors = [] ∧
      Loaded (expandAccessPresets (normalizeEndpointPorts (endpointDocument "*.0.0.5" 80)))
        (endpointPolicies "*.0.0.5" 80) ∧
      ∃ link, (curlProxy (endpointPolicies "*.0.0.5" 80) privateIp).handleTcpConnection literalClient =
          .dialled ⟨"10.0.0.5".toList, 80⟩ [⟨privateIp, 80⟩] link ∧
        PrivateIp privateIp ∧
        ¬ (curlProxy (endpointPolicies "*.0.0.5" 80) privateIp).Declared ⟨"10.0.0.5".toList, 80⟩ privateIp := by
  obtain ⟨link, ran⟩ := dialled_of_dials (literalClient_dials "*.0.0.5" (.inr rfl))
  refine ⟨by decide +kernel, ⟨by decide +kernel, by decide +kernel⟩, link, ran, privateIp_private, ?_⟩
  intro declared
  have parsed := endpoint_declares declared
  revert parsed
  decide +kernel

theorem exactHost_declared :
    ∃ link, (curlProxy (endpointPolicies "10.0.0.5" 80) privateIp).handleTcpConnection literalClient =
        .dialled ⟨"10.0.0.5".toList, 80⟩ [⟨privateIp, 80⟩] link ∧
      (curlProxy (endpointPolicies "10.0.0.5" 80) privateIp).Declared ⟨"10.0.0.5".toList, 80⟩ privateIp := by
  obtain ⟨link, ran⟩ := dialled_of_dials (literalClient_dials "10.0.0.5" (.inl rfl))
  have condition : ∀ ip, (curlProxy (endpointPolicies "10.0.0.5" 80) privateIp).allowedIps ⟨"10.0.0.5".toList, 80⟩ = [] →
      IpAddr.parse "10.0.0.5".toList = some ip → PrivateIp ip →
      (curlProxy (endpointPolicies "10.0.0.5" 80) privateIp).Declared ⟨"10.0.0.5".toList, 80⟩ ip := by
    intro ip _ literal _
    refine ⟨("api", ⟨[{ host := some "10.0.0.5", ports := [80] }], ["/usr/bin/curl"]⟩), List.mem_singleton.mpr rfl,
      by decide +kernel, _, List.mem_singleton.mpr rfl, .inl ⟨"10.0.0.5", rfl, literal⟩⟩
  have declared := (Proxy.private_declared_iff bareNets_lawful ran).mpr condition
  exact ⟨link, ran, declared _ (List.mem_singleton.mpr rfl) privateIp_private⟩

end Example

end OpenShell.Sandbox
