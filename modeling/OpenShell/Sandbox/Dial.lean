import OpenShell.Lib.IpAddr
import OpenShell.Lib.Results
import OpenShell.Sandbox.EndpointConfig

namespace OpenShell.Sandbox

open Net Results

/-! The addresses that the proxy may dial: the defence against requests to services inside the network. -/

def isInternalIpv4 (addr : Ipv4Addr) : Bool :=
  addr.isLoopback || addr.isPrivate || addr.isLinkLocal || addr.isUnspecified

def isInternalIp : IpAddr → Bool
  | .v4 addr => isInternalIpv4 addr
  | .v6 addr =>
    if addr.isLoopback || addr.isUnspecified then true
    else if addr.segment 0 &&& 0xFFC0 = 0xFE80 then true
    else if addr.segment 0 &&& 0xFE00 = 0xFC00 then true
    else
      match addr.toIpv4Mapped with
      | some mapped => isInternalIpv4 mapped
      | none => false

def isAlwaysBlockedIpv4 (addr : Ipv4Addr) : Bool := addr.isLoopback || addr.isLinkLocal || addr.isUnspecified

def isAlwaysBlockedIp : IpAddr → Bool
  | .v4 addr => isAlwaysBlockedIpv4 addr
  | .v6 addr =>
    if addr.isLoopback || addr.isUnspecified then true
    else if addr.segment 0 &&& 0xFFC0 = 0xFE80 then true
    else
      match addr.toIpv4Mapped with
      | some mapped => isAlwaysBlockedIpv4 mapped
      | none => false

def blockedControlPlanePorts : List UInt16 := [2379, 2380, 6443, 10250, 10255]

/-- The package `ipnet`, which is outside the repository: networks in CIDR notation. -/
structure IpNets where
  IpNet : Type
  parse : List Char → Option IpNet
  ofAddr : IpAddr → IpNet
  contains : IpNet → IpAddr → Bool

/-- What the proxy asks the outside: networks, and the addresses of a name. -/
structure Dialer where
  nets : IpNets
  lookupHost : String → UInt16 → Except String (List SocketAddr)

def implicitAllowedIpsForIpHost (host : String) : List String :=
  if (IpAddr.parse host.toList).isSome then [host] else []

def queryAllowedIps (engine : OpaEngine) (decision : ConnectDecision) (host : String) (port : UInt16) :
    List String :=
  if decision.hasPolicy then
    match engine.queryEndpointConfig (decision.input host port) with
    | some endpoint => endpoint.allowedIps
    | none => []
  else []

theorem queryAllowedIps_eq {engine : OpaEngine} {decision : ConnectDecision} {host : String} {port : UInt16}
    (hasPolicy : decision.hasPolicy = true) : queryAllowedIps engine decision host port =
      ((engine.queryEndpointConfig (decision.input host port)).map (·.allowedIps)).getD [] := by
  unfold queryAllowedIps
  rw [if_pos hasPolicy]
  cases engine.queryEndpointConfig (decision.input host port) <;> rfl

namespace Dialer

variable (dialer : Dialer)

def parseAllowedIp (entry : String) : Option dialer.nets.IpNet :=
  (dialer.nets.parse entry.toList).or ((IpAddr.parse entry.toList).map dialer.nets.ofAddr)

def parseAllowedIps (raw : List String) : Except String (List dialer.nets.IpNet) :=
  let errors := (raw.filter fun entry => (dialer.parseAllowedIp entry).isNone).map fun entry =>
    "invalid CIDR/IP in allowed_ips: " ++ entry
  if errors.isEmpty then .ok (raw.filterMap dialer.parseAllowedIp) else .error ("; ".intercalate errors)

def lookup (host : String) (port : UInt16) : Except String (List SocketAddr) :=
  match dialer.lookupHost host port with
  | .error error => .error ("DNS resolution failed for " ++ host ++ ":" ++ toString port ++ ": " ++ error)
  | .ok addrs =>
    if addrs.isEmpty then
      .error ("DNS resolution returned no addresses for " ++ host ++ ":" ++ toString port)
    else .ok addrs

def resolveAndRejectInternal (host : String) (port : UInt16) : Except String (List SocketAddr) := do
  let addrs ← dialer.lookup host port
  match addrs.find? (isInternalIp ·.ip) with
  | some addr =>
    .error (host ++ " resolves to internal address " ++ addr.ip.text ++ ", connection rejected")
  | none => pure addrs

def objection (host : String) (allowedIps : List dialer.nets.IpNet) (addr : SocketAddr) : Option String :=
  if isAlwaysBlockedIp addr.ip then
    some (host ++ " resolves to always-blocked address " ++ addr.ip.text ++ ", connection rejected")
  else if !allowedIps.any (dialer.nets.contains · addr.ip) then
    some (host ++ " resolves to " ++ addr.ip.text ++ " which is not in allowed_ips, connection rejected")
  else none

def resolveAndCheckAllowedIps (host : String) (port : UInt16) (allowedIps : List dialer.nets.IpNet) :
    Except String (List SocketAddr) := do
  let addrs ← dialer.lookup host port
  if blockedControlPlanePorts.contains port then
    .error ("port " ++ toString port ++ " is a blocked control-plane port, connection rejected")
  else
    match addrs.findSome? (dialer.objection host allowedIps) with
    | some reason => .error reason
    | none => pure addrs

/-- The list that the addresses are checked against: that of the endpoint, or else the host itself if it
    is an address. -/
def rawAllowedIps (engine : OpaEngine) (decision : ConnectDecision) (host hostLc : String) (port : UInt16) :
    List String :=
  let raw := queryAllowedIps engine decision hostLc port
  if raw.isEmpty then implicitAllowedIpsForIpHost host else raw

/-- The check that both request paths make before they connect. -/
def resolveUpstream (engine : OpaEngine) (decision : ConnectDecision) (host hostLc : String) (port : UInt16) :
    Except String (List SocketAddr) :=
  let raw := rawAllowedIps engine decision host hostLc port
  if !raw.isEmpty then do
    let nets ← dialer.parseAllowedIps raw
    dialer.resolveAndCheckAllowedIps host port nets
  else dialer.resolveAndRejectInternal host port

end Dialer

/-! The classifiers, in blocks of addresses. -/

section Classes

/-- Loopback, link-local and unspecified. -/
def UnsafeIpv4 (bits : BitVec 32) : Prop :=
  InBlock 0x7F000000#32 8 bits ∨ InBlock 0xA9FE0000#32 16 bits ∨ bits = 0

/-- The private networks of RFC 1918. -/
def PrivateIpv4 (bits : BitVec 32) : Prop :=
  InBlock 0x0A000000#32 8 bits ∨ InBlock 0xAC100000#32 12 bits ∨ InBlock 0xC0A80000#32 16 bits

/-- The address of version 4 that stands in the last 32 bits, under `::ffff:0:0/96`. -/
def Mapped (holds : BitVec 32 → Prop) (bits : BitVec 128) : Prop :=
  InBlock 0xFFFF00000000#128 96 bits ∧ holds (bits.extractLsb' 0 32)

def UnsafeIp : IpAddr → Prop
  | .v4 addr => UnsafeIpv4 addr.bits
  | .v6 addr => addr.bits = 1 ∨ addr.bits = 0 ∨
      InBlock 0xFE800000000000000000000000000000#128 10 addr.bits ∨ Mapped UnsafeIpv4 addr.bits

/-- RFC 1918 and `fc00::/7`. -/
def PrivateIp : IpAddr → Prop
  | .v4 addr => PrivateIpv4 addr.bits
  | .v6 addr => InBlock 0xFC000000000000000000000000000000#128 7 addr.bits ∨ Mapped PrivateIpv4 addr.bits

theorem isAlwaysBlockedIpv4_iff {addr : Ipv4Addr} : isAlwaysBlockedIpv4 addr = true ↔ UnsafeIpv4 addr.bits := by
  simp only [isAlwaysBlockedIpv4, UnsafeIpv4, Bool.or_eq_true, isLoopback_iff, isLinkLocal_iff,
    Ipv4Addr.isUnspecified, decide_eq_true_eq, or_assoc]

theorem isInternalIpv4_iff {addr : Ipv4Addr} :
    isInternalIpv4 addr = true ↔ UnsafeIpv4 addr.bits ∨ PrivateIpv4 addr.bits := by
  simp only [isInternalIpv4, UnsafeIpv4, PrivateIpv4, Bool.or_eq_true, isLoopback_iff, isLinkLocal_iff,
    isPrivate_iff, Ipv4Addr.isUnspecified, decide_eq_true_eq]
  tauto

theorem mapped_iff {addr : Ipv6Addr} {holds : BitVec 32 → Prop} :
    (∃ mapped, addr.toIpv4Mapped = some mapped ∧ holds mapped.bits) ↔ Mapped holds addr.bits := by
  simp only [toIpv4Mapped_eq_some, Mapped]
  constructor
  · rintro ⟨mapped, ⟨inside, same⟩, here⟩
    rw [← same]
    exact ⟨inside, here⟩
  · rintro ⟨inside, here⟩
    exact ⟨⟨_⟩, ⟨inside, rfl⟩, here⟩

theorem own_iff {addr : Ipv6Addr} :
    (addr.isLoopback || addr.isUnspecified) = true ↔ addr.bits = 1 ∨ addr.bits = 0 := by
  simp only [Ipv6Addr.isLoopback, Ipv6Addr.isUnspecified, Bool.or_eq_true, decide_eq_true_eq]

theorem isAlwaysBlockedIp_iff {ip : IpAddr} : isAlwaysBlockedIp ip = true ↔ UnsafeIp ip := by
  cases ip with
  | v4 addr => exact isAlwaysBlockedIpv4_iff
  | v6 addr =>
    simp only [isAlwaysBlockedIp, UnsafeIp]
    rw [← mapped_iff, ← segment_linkLocal_iff]
    split
    · rename_i own
      rw [own_iff] at own
      tauto
    · rename_i other
      rw [own_iff, not_or] at other
      split
      · tauto
      · rename_i distant
        simp only [other.1, other.2, distant, false_or]
        cases addr.toIpv4Mapped with
        | none => simp
        | some inner => simp [isAlwaysBlockedIpv4_iff]

theorem isInternalIp_iff {ip : IpAddr} : isInternalIp ip = true ↔ UnsafeIp ip ∨ PrivateIp ip := by
  cases ip with
  | v4 addr => exact isInternalIpv4_iff
  | v6 addr =>
    simp only [isInternalIp, UnsafeIp, PrivateIp]
    rw [← mapped_iff, ← mapped_iff, ← segment_linkLocal_iff, ← segment_uniqueLocal_iff]
    split
    · rename_i own
      rw [own_iff] at own
      tauto
    · rename_i other
      rw [own_iff, not_or] at other
      split
      · tauto
      · rename_i distant
        split
        · tauto
        · rename_i abroad
          simp only [other.1, other.2, distant, abroad, false_or]
          cases addr.toIpv4Mapped with
          | none => simp
          | some inner => simp [isInternalIpv4_iff]

end Classes

/-! What the check lets through. -/

namespace Dialer

variable {dialer : Dialer} {host : String} {port : UInt16} {addrs : List SocketAddr}

theorem lookup_ok (found : dialer.lookup host port = .ok addrs) :
    dialer.lookupHost host port = .ok addrs ∧ addrs ≠ [] := by
  unfold lookup at found
  split at found
  · cases found
  · rename_i answered looked
    split at found
    · cases found
    · rename_i filled
      cases found
      exact ⟨looked, by simpa using filled⟩

theorem of_rejectInternal (ran : dialer.resolveAndRejectInternal host port = .ok addrs) :
    dialer.lookup host port = .ok addrs ∧ ∀ addr ∈ addrs, ¬ UnsafeIp addr.ip ∧ ¬ PrivateIp addr.ip := by
  unfold resolveAndRejectInternal at ran
  obtain ⟨looked, found, ran⟩ := ok_of_bind ran
  split at ran
  · cases ran
  · rename_i clean
    cases ran
    refine ⟨found, ?_⟩
    intro addr member
    have outside := List.find?_eq_none.mp clean addr member
    rwa [isInternalIp_iff, not_or] at outside

theorem of_checkAllowedIps {nets : List dialer.nets.IpNet}
    (ran : dialer.resolveAndCheckAllowedIps host port nets = .ok addrs) :
    dialer.lookup host port = .ok addrs ∧ port ∉ blockedControlPlanePorts ∧
      ∀ addr ∈ addrs, ¬ UnsafeIp addr.ip ∧ ∃ net ∈ nets, dialer.nets.contains net addr.ip = true := by
  unfold resolveAndCheckAllowedIps at ran
  obtain ⟨looked, found, ran⟩ := ok_of_bind ran
  split at ran
  · cases ran
  · rename_i openPort
    split at ran
    · cases ran
    · rename_i clean
      cases ran
      refine ⟨found, by simpa using openPort, ?_⟩
      intro addr member
      have passed := List.findSome?_eq_none_iff.mp clean addr member
      unfold objection at passed
      split at passed
      · cases passed
      · rename_i safe
        split at passed
        · cases passed
        · rename_i listed
          rw [isAlwaysBlockedIp_iff] at safe
          exact ⟨safe, by simpa using listed⟩

/-- What holds of the addresses that are dialled for a request. -/
structure Vetted (dialer : Dialer) (raw : List String) (host : String) (port : UInt16) (addrs : List SocketAddr) :
    Prop where
  looked : dialer.lookupHost host port = .ok addrs
  filled : addrs ≠ []
  safe : ∀ addr ∈ addrs, ¬ UnsafeIp addr.ip
  abroad : raw = [] → ∀ addr ∈ addrs, ¬ PrivateIp addr.ip
  listed : raw ≠ [] → port ∉ blockedControlPlanePorts ∧
    ∃ nets, dialer.parseAllowedIps raw = .ok nets ∧
      ∀ addr ∈ addrs, ∃ net ∈ nets, dialer.nets.contains net addr.ip = true

theorem vetted_of_resolveUpstream {engine : OpaEngine} {decision : ConnectDecision} {hostLc : String}
    (ran : dialer.resolveUpstream engine decision host hostLc port = .ok addrs) :
    dialer.Vetted (rawAllowedIps engine decision host hostLc port) host port addrs := by
  unfold resolveUpstream at ran
  simp only at ran
  generalize rawAllowedIps engine decision host hostLc port = raw at ran
  cases raw with
  | nil =>
    obtain ⟨found, outside⟩ := of_rejectInternal ran
    obtain ⟨looked, filled⟩ := lookup_ok found
    exact ⟨looked, filled, fun addr member => (outside addr member).1, fun _ addr member => (outside addr member).2,
      fun given => absurd rfl given⟩
  | cons entry entries =>
    obtain ⟨nets, parsed, ran⟩ := ok_of_bind ran
    obtain ⟨found, openPort, inside⟩ := of_checkAllowedIps ran
    obtain ⟨looked, filled⟩ := lookup_ok found
    exact ⟨looked, filled, fun addr member => (inside addr member).1, fun empty => absurd empty (List.cons_ne_nil _ _),
      fun _ => ⟨openPort, nets, parsed, fun addr member => (inside addr member).2⟩⟩

end Dialer

/-! The check of the addresses, as a predicate on the list they are checked against. -/

namespace Dialer

variable (dialer : Dialer)

def entryHolds (entry : String) (ip : IpAddr) : Bool :=
  (dialer.parseAllowedIp entry).any (dialer.nets.contains · ip)

/-- The addresses of the host pass the check against the list of an endpoint. -/
def passes (host : String) (addrs : List SocketAddr) (listed : List String) : Bool :=
  let raw := if listed.isEmpty then implicitAllowedIpsForIpHost host else listed
  if raw.isEmpty then !addrs.any (isInternalIp ·.ip)
  else raw.all (fun entry => (dialer.parseAllowedIp entry).isSome) &&
    addrs.all fun addr => raw.any (dialer.entryHolds · addr.ip)

variable {dialer} {host hostLc : String} {port : UInt16} {addrs : List SocketAddr} {raw : List String}

theorem lookup_of_answered (looked : dialer.lookupHost host port = .ok addrs) (answered : addrs ≠ []) :
    dialer.lookup host port = .ok addrs := by
  unfold lookup
  rw [looked]
  exact if_neg (by simpa using answered)

theorem rejectInternal_of_abroad (found : dialer.lookup host port = .ok addrs)
    (abroad : addrs.any (isInternalIp ·.ip) = false) : dialer.resolveAndRejectInternal host port = .ok addrs := by
  have outside : addrs.find? (isInternalIp ·.ip) = none := by
    rw [List.find?_eq_none]
    simpa using abroad
  unfold resolveAndRejectInternal
  simp only [found, bind, Except.bind, outside]
  rfl

theorem checkAllowedIps_of_held {nets : List dialer.nets.IpNet} (found : dialer.lookup host port = .ok addrs)
    (openPort : port ∉ blockedControlPlanePorts) (safe : ∀ addr ∈ addrs, ¬ UnsafeIp addr.ip)
    (held : ∀ addr ∈ addrs, ∃ net ∈ nets, dialer.nets.contains net addr.ip = true) :
    dialer.resolveAndCheckAllowedIps host port nets = .ok addrs := by
  have clean : addrs.findSome? (dialer.objection host nets) = none := by
    rw [List.findSome?_eq_none_iff]
    intro addr member
    have unblocked : ¬ isAlwaysBlockedIp addr.ip = true := by
      rw [isAlwaysBlockedIp_iff]
      exact safe addr member
    have listed : nets.any (dialer.nets.contains · addr.ip) = true := List.any_eq_true.mpr (held addr member)
    unfold objection
    rw [if_neg unblocked, if_neg (by simp [listed])]
  have other : blockedControlPlanePorts.contains port = false := by simpa using openPort
  unfold resolveAndCheckAllowedIps
  simp only [found, bind, Except.bind, other, Bool.false_eq_true, if_false, clean]
  rfl

theorem parseAllowedIps_eq_ok {nets : List dialer.nets.IpNet} : dialer.parseAllowedIps raw = .ok nets ↔
    (∀ entry ∈ raw, (dialer.parseAllowedIp entry).isSome = true) ∧ raw.filterMap dialer.parseAllowedIp = nets := by
  unfold parseAllowedIps
  simp only
  split
  · rename_i clean
    rw [List.isEmpty_iff, List.map_eq_nil_iff, List.filter_eq_nil_iff] at clean
    rw [Except.ok.injEq]
    have parsed : ∀ entry ∈ raw, (dialer.parseAllowedIp entry).isSome = true := by
      intro entry member
      simpa [Option.isSome_iff_ne_none] using clean entry member
    exact ⟨fun same => ⟨parsed, same⟩, fun both => both.2⟩
  · rename_i broken
    refine iff_of_false (fun refused => by cases refused) ?_
    rintro ⟨parsed, _⟩
    apply broken
    rw [List.isEmpty_iff, List.map_eq_nil_iff, List.filter_eq_nil_iff]
    intro entry member
    rw [← Option.not_isSome, parsed entry member]
    simp

theorem entryHolds_iff {entry : String} {ip : IpAddr} : dialer.entryHolds entry ip = true ↔
    ∃ net, dialer.parseAllowedIp entry = some net ∧ dialer.nets.contains net ip = true := by
  unfold entryHolds
  cases dialer.parseAllowedIp entry <;> simp

theorem any_entryHolds_iff {ip : IpAddr} : raw.any (dialer.entryHolds · ip) = true ↔
    ∃ net ∈ raw.filterMap dialer.parseAllowedIp, dialer.nets.contains net ip = true := by
  rw [List.any_eq_true]
  constructor
  · rintro ⟨source, member, holds⟩
    obtain ⟨net, read, inside⟩ := entryHolds_iff.mp holds
    exact ⟨net, List.mem_filterMap.mpr ⟨source, member, read⟩, inside⟩
  · rintro ⟨net, member, inside⟩
    obtain ⟨source, sourceIn, read⟩ := List.mem_filterMap.mp member
    exact ⟨source, sourceIn, entryHolds_iff.mpr ⟨net, read, inside⟩⟩

theorem resolveUpstream_iff {engine : OpaEngine} {decision : ConnectDecision}
    (looked : dialer.lookupHost host port = .ok addrs) (answered : addrs ≠ [])
    (openPort : port ∉ blockedControlPlanePorts) (safe : ∀ addr ∈ addrs, ¬ UnsafeIp addr.ip) :
    dialer.resolveUpstream engine decision host hostLc port = .ok addrs ↔
      dialer.passes host addrs (queryAllowedIps engine decision hostLc port) = true := by
  have found := lookup_of_answered looked answered
  have sameRaw : rawAllowedIps engine decision host hostLc port =
      if (queryAllowedIps engine decision hostLc port).isEmpty then implicitAllowedIpsForIpHost host
      else queryAllowedIps engine decision hostLc port := rfl
  unfold passes
  simp only
  rw [← sameRaw]
  constructor
  · intro ran
    have vetted := vetted_of_resolveUpstream ran
    generalize rawAllowedIps engine decision host hostLc port = raw at vetted
    cases raw with
    | nil =>
      simp only [List.isEmpty_nil, if_true, Bool.not_eq_true', List.any_eq_false, isInternalIp_iff, not_or]
      exact fun addr member => ⟨vetted.safe addr member, vetted.abroad rfl addr member⟩
    | cons entry entries =>
      obtain ⟨_, nets, parsed, held⟩ := vetted.listed (List.cons_ne_nil _ _)
      obtain ⟨entriesParse, sameNets⟩ := parseAllowedIps_eq_ok.mp parsed
      simp only [List.isEmpty_cons, Bool.false_eq_true, if_false, Bool.and_eq_true, List.all_eq_true]
      refine ⟨entriesParse, ?_⟩
      intro addr member
      rw [any_entryHolds_iff, sameNets]
      exact held addr member
  · intro passed
    unfold resolveUpstream
    simp only
    generalize rawAllowedIps engine decision host hostLc port = raw at passed
    cases raw with
    | nil =>
      simp only [List.isEmpty_nil, if_true, Bool.not_eq_true'] at passed
      exact rejectInternal_of_abroad found passed
    | cons entry entries =>
      simp only [List.isEmpty_cons, Bool.false_eq_true, if_false, Bool.and_eq_true, List.all_eq_true] at passed
      simp only [List.isEmpty_cons, Bool.not_false, if_true, bind, Except.bind,
        parseAllowedIps_eq_ok.mpr ⟨passed.1, rfl⟩]
      apply checkAllowedIps_of_held found openPort safe
      intro addr member
      exact any_entryHolds_iff.mp (passed.2 addr member)

end Dialer

end OpenShell.Sandbox
