import OpenShell.Sandbox.AmendedPolicy
import OpenShell.Sandbox.InternalAddresses
import OpenShell.Sandbox.RunningPolicy
import OpenShell.Server.Landing
import OpenShell.Server.Revisions

namespace OpenShell.Server

open OpenShell.Policy OpenShell.Sandbox Text Net Effects

/-! The way of a denied connection through the gateway: the rule drafted for it is stored, approved and merged, and
the sandbox loads the policy that comes of it. -/

variable {Blob : Type}

/-- The notes of the gateway on a proposal. -/
def generateSecurityNotes (host : String) (port : UInt16) : String :=
  " ".intercalate <|
    (if Mapper.looksInternal host then ["Destination '" ++ host ++ "' appears to be an internal/private address."]
      else []) ++
    (if hasWildcard host then
      ["Host '" ++ host ++ "' contains a wildcard — this may match unintended destinations."] else []) ++
    (if 49152 < port then
      ["Port " ++ toString port ++ " is in the ephemeral range — this may be a temporary service."] else []) ++
    (if Mapper.databasePorts.contains port then
      ["Port " ++ toString port ++ " is a well-known database/service port."] else [])

/-- The row that `handle_submit_policy_analysis` writes for a proposal, if it takes it. -/
def submittedRecord (wire : Wire Blob) (lower : String → String) (id sandboxId : String) (nowMs : Int)
    (chunk : Mapper.PolicyChunk) : Option (DraftChunkRecord Blob) :=
  if chunk.ruleName.isEmpty then none
  else chunk.proposedRule.map fun rule =>
    let host := (rule.endpoints.head?.map fun endpoint => lower endpoint.host).getD ""
    let port := (rule.endpoints.head?.map fun endpoint => endpoint.port.toInt32).getD 0
    let binary := (rule.binaries.head?.map fun binary => binary.path).getD ""
    { id, sandboxId, status := .pending, ruleName := chunk.ruleName, proposedRule := wire.encodeRule rule,
      securityNotes := generateSecurityNotes host
        (if port.toUInt32 < 65536 then port.toUInt32.toUInt16 else 0)
      createdAtMs := nowMs, decidedAtMs := none, host, port, binary }

/-- The proxy of the sandbox, once its engine has loaded other policies. -/
def reloaded (proxy : Proxy) (policies : PolicyObject) : Proxy :=
  { proxy with engine := proxy.engine.replacing policies }

/-- Approving the row leaves a policy that the sandbox loads, and under which the proxy dials the addresses. -/
def Closes (wire : Wire Blob) (lower : String → String) (store : Store Blob) (sandboxId : String)
    (record : DraftChunkRecord Blob) (proxy : Proxy) (destination : Destination) (addrs : List SocketAddr) : Prop :=
  ∀ written approved result,
    (mergeChunkIntoPolicy wire lower sandboxId record).run Store.exec store = (.ok written, approved) →
    currentPolicy wire approved sandboxId = .ok result →
    ∃ policies, RunsOn policies result ∧ (reloaded proxy policies).Dials destination addrs

/-! When the loop closes. -/

section Condition

variable (proxy : Proxy) (destination : Destination) (addrs : List SocketAddr)

def hostLc : String := String.ofList (toAsciiLowercase destination.host)

def someInternal : Bool := addrs.any (Sandbox.isInternalIp ·.ip)

/-- The endpoint is for the port, and for the host or for any. -/
def reaches (endpoint : NetworkEndpoint) : Bool :=
  (proxy.engine.hostExact (proxy.input destination) (shownEndpoint endpoint) ||
    proxy.engine.hostGlob (proxy.input destination) (shownEndpoint endpoint) || endpoint.host == "") &&
    OpaEngine.coversPort (proxy.input destination) (shownEndpoint endpoint)

/-- The host, taken for a pattern if it has a wildcard, matches itself. -/
def matchesItself : Bool :=
  !hasWildcard (hostLc destination) ||
    proxy.engine.builtins.globMatch (proxy.engine.builtins.lower (hostLc destination)) ["."]
      (proxy.engine.builtins.lower (hostLc destination))

def Slot.matches : Slot → Bool
  | .kept endpoint => proxy.engine.endpointMatchesRequest (proxy.input destination) (shownEndpoint endpoint)
  | .joined endpoint =>
    if someInternal addrs then reaches proxy destination endpoint
    else proxy.engine.endpointMatchesRequest (proxy.input destination) (shownEndpoint endpoint)
  | .fresh => matchesItself proxy destination

/-- The endpoint matches, and has a configuration or is given addresses. -/
def Slot.speaks : Slot → Bool
  | .kept endpoint => proxy.engine.configures (proxy.input destination) (shownEndpoint endpoint)
  | .joined endpoint =>
    if someInternal addrs then reaches proxy destination endpoint
    else proxy.engine.configures (proxy.input destination) (shownEndpoint endpoint)
  | .fresh => someInternal addrs && matchesItself proxy destination

/-- The addresses pass the list of the endpoint. One that is given the addresses only needs entries that can be read. -/
def Slot.passes : Slot → Bool
  | .kept endpoint => proxy.dialer.passes (String.ofList destination.host) addrs endpoint.allowedIps
  | .joined endpoint =>
    if someInternal addrs then endpoint.allowedIps.all fun entry => (proxy.dialer.parseAllowedIp entry).isSome
    else proxy.dialer.passes (String.ofList destination.host) addrs endpoint.allowedIps
  | .fresh => someInternal addrs || proxy.dialer.passes (String.ofList destination.host) addrs []

variable (lower : String → String) (isAlphanumeric : Char → Bool) (policy : SandboxPolicy)

/-- The rule that a proposal for the destination is merged into. -/
def landing : String × NetworkPolicyRule :=
  landingRule lower policy (Mapper.generateRuleName isAlphanumeric (hostLc destination) destination.port.toUInt32)
    (hostLc destination) destination.port.toUInt32

/-- What a proposal for the destination makes of the endpoints of a rule. -/
def ruleSlots (rule : NetworkPolicyRule) : List Slot :=
  slots lower (hostLc destination) destination.port.toUInt32 rule.endpoints

def landingSlots : List Slot := ruleSlots destination lower (landing destination lower isAlphanumeric policy).2

/-- The peer is known. No rule before the landing rule has the say. The landing rule is for the binary and for the
    destination, and its first endpoint that speaks lets the addresses pass; if none speaks, no rule may have allowed
    the connection before. A host that becomes a new endpoint is one that the sandbox accepts. -/
structure Opens (binary : String) : Prop where
  identified : ∃ peer, proxy.identity = .ok peer
  silent : ∀ name rule, policy.networkPolicies.lookup name = some rule →
    name < (landing destination lower isAlphanumeric policy).1 →
    proxy.engine.policyMatches (proxy.input destination) (ruleData rule) = true →
      ∀ endpoint ∈ rule.endpoints, proxy.engine.configures (proxy.input destination) (shownEndpoint endpoint) = false
  binary : proxy.engine.binaryAllowed (proxy.input destination)
      (ruleData (landing destination lower isAlphanumeric policy).2) = true ∨ hasWildcard binary = false ∨
    (binary :: (proxy.input destination).ancestors).any (proxy.engine.builtins.globMatch binary ["/"]) = true
  matched : ∃ slot ∈ landingSlots destination lower isAlphanumeric policy,
    slot.matches proxy destination addrs = true
  decided : ((landingSlots destination lower isAlphanumeric policy).find? (Slot.speaks proxy destination addrs)).elim
    (¬ proxy.Allows destination ∧ proxy.dialer.passes (String.ofList destination.host) addrs [] = true)
    fun slot => slot.passes proxy destination addrs = true
  loads : Slot.fresh ∈ landingSlots destination lower isAlphanumeric policy →
    (checkHost "" (hostLc destination)).errors = []

end Condition

/-! The endpoints of the landing rule, with the proposal in it. -/

section Filled

variable {proxy : Proxy} {destination : Destination} {addrs : List SocketAddr}

/-- The proposed endpoint. -/
def proposedFor (destination : Destination) (addrs : List SocketAddr) : NetworkEndpoint :=
  { host := hostLc destination, port := destination.port.toUInt32, ports := [destination.port.toUInt32],
    allowedIps := Mapper.allowedIpsFor addrs }

theorem any_isInternalIp (safe : ∀ addr ∈ addrs, ¬ UnsafeIp addr.ip) :
    addrs.any (Mapper.isInternalIp ·.ip) = someInternal addrs := by
  rw [Bool.eq_iff_iff]
  unfold someInternal
  rw [List.any_eq_true, List.any_eq_true]
  apply exists_congr
  intro addr
  apply and_congr_right
  intro member
  rw [Mapper.isInternalIp_eq (safe addr member)]

theorem mem_proposedIps (safe : ∀ addr ∈ addrs, ¬ UnsafeIp addr.ip) {entry : String} :
    entry ∈ Mapper.allowedIpsFor addrs ↔ someInternal addrs = true ∧ ∃ addr ∈ addrs, addr.ip.text = entry := by
  rw [Mapper.mem_allowedIpsFor, any_isInternalIp safe]

theorem proposedIps_eq_nil (safe : ∀ addr ∈ addrs, ¬ UnsafeIp addr.ip) (abroad : someInternal addrs = false) :
    Mapper.allowedIpsFor addrs = [] := by
  rw [List.eq_nil_iff_forall_not_mem]
  intro entry member
  rw [mem_proposedIps safe, abroad] at member
  exact absurd member.1 (by decide)

theorem exists_proposedIp (safe : ∀ addr ∈ addrs, ¬ UnsafeIp addr.ip) (internal : someInternal addrs = true) :
    ∃ entry, entry ∈ Mapper.allowedIpsFor addrs := by
  obtain ⟨addr, member, _⟩ := List.any_eq_true.mp internal
  exact ⟨_, (mem_proposedIps safe).mpr ⟨internal, addr, member, rfl⟩⟩

theorem filled_joined_abroad (safe : ∀ addr ∈ addrs, ¬ UnsafeIp addr.ip) (abroad : someInternal addrs = false)
    (endpoint : NetworkEndpoint) : (Slot.joined endpoint).filled (proposedFor destination addrs) = endpoint := by
  show { endpoint with allowedIps := (Mapper.allowedIpsFor addrs).foldl addAllowedIp endpoint.allowedIps } = endpoint
  rw [proposedIps_eq_nil safe abroad]
  rfl

theorem joinedIps_isEmpty (safe : ∀ addr ∈ addrs, ¬ UnsafeIp addr.ip) (internal : someInternal addrs = true)
    (endpoint : NetworkEndpoint) :
    ((Mapper.allowedIpsFor addrs).foldl addAllowedIp endpoint.allowedIps).isEmpty = false := by
  obtain ⟨entry, member⟩ := exists_proposedIp safe internal
  rw [List.isEmpty_eq_false_iff]
  exact List.ne_nil_of_mem (mem_foldl_addAllowedIp.mpr (.inr member))

theorem hostExact_self (shown : EndpointData) (named : shown.host = some (hostLc destination)) :
    proxy.engine.hostExact (proxy.input destination) shown = !hasWildcard (hostLc destination) := by
  have own : (proxy.input destination).host = hostLc destination := rfl
  unfold OpaEngine.hostExact
  rw [named, own]
  simp

theorem hostGlob_self (shown : EndpointData) (named : shown.host = some (hostLc destination)) :
    proxy.engine.hostGlob (proxy.input destination) shown = (hasWildcard (hostLc destination) &&
      proxy.engine.builtins.globMatch (proxy.engine.builtins.lower (hostLc destination)) ["."]
        (proxy.engine.builtins.lower (hostLc destination))) := by
  have own : (proxy.input destination).host = hostLc destination := rfl
  unfold OpaEngine.hostGlob
  rw [named, own]

theorem proposed_matches : proxy.engine.endpointMatchesRequest (proxy.input destination)
    (shownEndpoint (proposedFor destination addrs)) = matchesItself proxy destination := by
  have ports : OpaEngine.coversPort (proxy.input destination) (shownEndpoint (proposedFor destination addrs)) = true := by
    have own : (proxy.input destination).port = destination.port := rfl
    unfold OpaEngine.coversPort
    rw [shownEndpoint_ports, own]
    simp [protoPorts, proposedFor]
  have named : (shownEndpoint (proposedFor destination addrs)).host = some (hostLc destination) :=
    shownEndpoint_host _
  rw [endpointMatchesRequest_eq, ports, Bool.and_true, hostExact_self _ named, hostGlob_self _ named]
  unfold matchesItself OpaEngine.hostless
  rw [named]
  by_cases empty : hostLc destination = ""
  · rw [empty]
    simp [hasWildcard]
  · have filled : (hostLc destination == "") = false := by simpa using empty
    rw [Option.getD_some, filled]
    cases hasWildcard (hostLc destination) <;> simp

/-- The filled endpoint matches the connection. -/
theorem matches_filled (safe : ∀ addr ∈ addrs, ¬ UnsafeIp addr.ip) (slot : Slot) :
    proxy.engine.endpointMatchesRequest (proxy.input destination)
        (shownEndpoint (slot.filled (proposedFor destination addrs))) = slot.matches proxy destination addrs := by
  cases slot with
  | kept endpoint => rfl
  | joined endpoint =>
    cases internal : someInternal addrs with
    | false =>
      rw [filled_joined_abroad safe internal]
      simp only [Slot.matches, internal, Bool.false_eq_true, if_false]
    | true =>
      simp only [Slot.matches, internal, if_true]
      refine (shownEndpoint_withIps_matches endpoint _).trans ?_
      have given : (List.foldl addAllowedIp endpoint.allowedIps (proposedFor destination addrs).allowedIps).isEmpty = false :=
        joinedIps_isEmpty safe internal endpoint
      rw [given, Bool.not_false, Bool.and_true]
      rfl
  | fresh => exact proposed_matches

theorem proposed_extended (safe : ∀ addr ∈ addrs, ¬ UnsafeIp addr.ip) :
    OpaEngine.endpointHasExtendedConfig (shownEndpoint (proposedFor destination addrs)) = someInternal addrs := by
  unfold OpaEngine.endpointHasExtendedConfig
  rw [shownEndpoint_allowedIps, shownEndpoint_protocol, shownEndpoint_tls]
  cases internal : someInternal addrs with
  | false =>
    simp only [proposedFor, proposedIps_eq_nil safe internal]
    rfl
  | true =>
    obtain ⟨entry, member⟩ := exists_proposedIp safe internal
    have listed : (Mapper.allowedIpsFor addrs).isEmpty = false := by
      rw [List.isEmpty_eq_false_iff]
      exact List.ne_nil_of_mem member
    simp only [proposedFor, listed, Bool.not_false, Bool.or_true, Bool.true_or]

/-- The filled endpoint configures the connection. -/
theorem configures_filled (safe : ∀ addr ∈ addrs, ¬ UnsafeIp addr.ip) (slot : Slot) :
    proxy.engine.configures (proxy.input destination) (shownEndpoint (slot.filled (proposedFor destination addrs))) =
      slot.speaks proxy destination addrs := by
  have matched : proxy.engine.endpointMatchesRequest (proxy.input destination)
      (shownEndpoint (slot.filled (proposedFor destination addrs))) = slot.matches proxy destination addrs :=
    matches_filled safe slot
  unfold OpaEngine.configures
  rw [matched]
  cases slot with
  | kept endpoint => rfl
  | joined endpoint =>
    cases internal : someInternal addrs with
    | false =>
      rw [filled_joined_abroad safe internal]
      simp only [Slot.matches, Slot.speaks, internal, Bool.false_eq_true, if_false]
      rfl
    | true =>
      have extended : OpaEngine.endpointHasExtendedConfig
          (shownEndpoint ((Slot.joined endpoint).filled (proposedFor destination addrs))) = true := by
        unfold OpaEngine.endpointHasExtendedConfig
        rw [shownEndpoint_allowedIps]
        simp only [Slot.filled, proposedFor, joinedIps_isEmpty safe internal endpoint, Bool.not_false, Bool.or_true,
          Bool.true_or]
      simp only [Slot.matches, Slot.speaks, internal, if_true, extended, Bool.and_true]
  | fresh =>
    simp only [Slot.filled, proposed_extended safe]
    exact Bool.and_comm _ _

theorem proposedIp_parses {dialer : Dialer} (lawful : dialer.nets.Lawful) (safe : ∀ addr ∈ addrs, ¬ UnsafeIp addr.ip)
    {entry : String} (proposed : entry ∈ Mapper.allowedIpsFor addrs) : (dialer.parseAllowedIp entry).isSome = true := by
  obtain ⟨_, addr, _, rfl⟩ := (mem_proposedIps safe).mp proposed
  rw [parseAllowedIp_text lawful]
  rfl

/-- A list with all the addresses in it lets them pass, if its entries can be read. -/
theorem passes_of_listed {dialer : Dialer} (lawful : dialer.nets.Lawful) {host : String} {listed : List String}
    (filled : listed ≠ []) (texts : ∀ addr ∈ addrs, addr.ip.text ∈ listed) :
    dialer.passes host addrs listed = listed.all fun entry => (dialer.parseAllowedIp entry).isSome := by
  have held : (addrs.all fun addr => listed.any (dialer.entryHolds · addr.ip)) = true := by
    rw [List.all_eq_true]
    intro addr member
    rw [List.any_eq_true]
    refine ⟨addr.ip.text, texts addr member, ?_⟩
    rw [Dialer.entryHolds_iff]
    exact ⟨_, parseAllowedIp_text lawful addr.ip, (lawful.contains_ofAddr _ _).mpr rfl⟩
  have some : listed.isEmpty = false := by simpa using filled
  unfold Dialer.passes
  simp only [some, Bool.false_eq_true, if_false, held, Bool.and_true]

/-- The addresses pass the list of the filled endpoint. -/
theorem passes_filled (lawful : proxy.dialer.nets.Lawful) (safe : ∀ addr ∈ addrs, ¬ UnsafeIp addr.ip) (slot : Slot) :
    proxy.dialer.passes (String.ofList destination.host) addrs
        (slot.filled (proposedFor destination addrs)).allowedIps = slot.passes proxy destination addrs := by
  cases slot with
  | kept endpoint => rfl
  | joined endpoint =>
    cases internal : someInternal addrs with
    | false =>
      rw [filled_joined_abroad safe internal]
      simp only [Slot.passes, internal, Bool.false_eq_true, if_false]
    | true =>
      have filled : (Mapper.allowedIpsFor addrs).foldl addAllowedIp endpoint.allowedIps ≠ [] := by
        simpa using joinedIps_isEmpty safe internal endpoint
      simp only [Slot.passes, internal, if_true]
      refine (passes_of_listed lawful filled ?_).trans ?_
      · intro addr member
        exact mem_foldl_addAllowedIp.mpr (.inr ((mem_proposedIps safe).mpr ⟨internal, addr, member, rfl⟩))
      · rw [Bool.eq_iff_iff, List.all_eq_true, List.all_eq_true]
        constructor
        · intro parsed entry member
          exact parsed entry (mem_foldl_addAllowedIp.mpr (.inl member))
        · intro parsed entry member
          rcases mem_foldl_addAllowedIp.mp member with own | proposed
          · exact parsed entry own
          · exact proposedIp_parses lawful safe proposed
  | fresh =>
    show proxy.dialer.passes (String.ofList destination.host) addrs (Mapper.allowedIpsFor addrs) = _
    cases internal : someInternal addrs with
    | false =>
      rw [proposedIps_eq_nil safe internal]
      simp only [Slot.passes, internal, Bool.false_or]
    | true =>
      obtain ⟨entry, member⟩ := exists_proposedIp safe internal
      simp only [Slot.passes, internal, Bool.true_or]
      rw [passes_of_listed lawful (List.ne_nil_of_mem member)
        fun addr inside => (mem_proposedIps safe).mpr ⟨internal, addr, inside, rfl⟩, List.all_eq_true]
      intro text listed
      exact proposedIp_parses lawful safe listed

end Filled

/-! The landing rule as a whole. -/

section Landed

/-- The rule with the proposal in it: its endpoints are the filled slots, and the binary is among its own. -/
structure Extended (lower : String → String) (destination : Destination) (addrs : List SocketAddr) (binary : String)
    (rule landed : NetworkPolicyRule) : Prop where
  endpoints : landed.endpoints = (ruleSlots destination lower rule).map (Slot.filled (proposedFor destination addrs))
  binaries : landed.binaries = addBinary rule.binaries { path := binary }

variable {proxy : Proxy} {destination : Destination} {addrs : List SocketAddr} {lower : String → String}
  {rule landed : NetworkPolicyRule} {binary : String}

theorem mem_addBinary {binaries : List NetworkBinary} {binary path : String} :
    path ∈ (addBinary binaries { path := binary }).map (·.path) ↔ path ∈ binaries.map (·.path) ∨ path = binary := by
  unfold addBinary
  split
  · rename_i present
    obtain ⟨held, inside, same⟩ := List.any_eq_true.mp present
    constructor
    · exact .inl
    · rintro (listed | own)
      · exact listed
      · rw [own]
        exact List.mem_map.mpr ⟨held, inside, by simpa using same⟩
  · simp

theorem landed_binaryAllowed (extended : Extended lower destination addrs binary rule landed)
    (own : (proxy.input destination).binaryPath = binary) :
    proxy.engine.binaryAllowed (proxy.input destination) (ruleData landed) = true ↔
      proxy.engine.binaryAllowed (proxy.input destination) (ruleData rule) = true ∨ hasWildcard binary = false ∨
        (binary :: (proxy.input destination).ancestors).any (proxy.engine.builtins.globMatch binary ["/"]) = true := by
  have itself : pathAllows proxy.engine (proxy.input destination) binary = true ↔ hasWildcard binary = false ∨
      (binary :: (proxy.input destination).ancestors).any (proxy.engine.builtins.globMatch binary ["/"]) = true := by
    unfold pathAllows
    rw [own]
    cases hasWildcard binary <;> simp
  rw [binaryAllowed_iff, binaryAllowed_iff, ← itself]
  show (∃ path ∈ landed.binaries.map (·.path), _) ↔ (∃ path ∈ rule.binaries.map (·.path), _) ∨ _
  rw [extended.binaries]
  simp only [mem_addBinary]
  constructor
  · rintro ⟨path, listed | same, allows⟩
    · exact .inl ⟨path, listed, allows⟩
    · rw [same] at allows
      exact .inr allows
  · rintro (⟨path, listed, allows⟩ | allows)
    · exact ⟨path, .inl listed, allows⟩
    · exact ⟨binary, .inr rfl, allows⟩

theorem landed_endpoints (extended : Extended lower destination addrs binary rule landed) :
    (ruleData landed).endpoints = (ruleSlots destination lower rule).map
      fun slot => shownEndpoint (slot.filled (proposedFor destination addrs)) := by
  show landed.endpoints.map shownEndpoint = _
  rw [extended.endpoints, List.map_map]
  rfl

theorem landed_endpointAllowed (safe : ∀ addr ∈ addrs, ¬ UnsafeIp addr.ip)
    (extended : Extended lower destination addrs binary rule landed) :
    proxy.engine.endpointAllowed (proxy.input destination) (ruleData landed) = true ↔
      ∃ slot ∈ ruleSlots destination lower rule,
        slot.matches proxy destination addrs = true := by
  rw [endpointAllowed_iff, landed_endpoints extended]
  constructor
  · rintro ⟨endpoint, inside, matched⟩
    obtain ⟨slot, member, rfl⟩ := List.mem_map.mp inside
    exact ⟨slot, member, by rw [← matches_filled safe slot]; exact matched⟩
  · rintro ⟨slot, member, matched⟩
    exact ⟨_, List.mem_map.mpr ⟨slot, member, rfl⟩, by rw [matches_filled safe slot]; exact matched⟩

theorem landed_policyMatches (safe : ∀ addr ∈ addrs, ¬ UnsafeIp addr.ip)
    (extended : Extended lower destination addrs binary rule landed)
    (own : (proxy.input destination).binaryPath = binary) :
    proxy.engine.policyMatches (proxy.input destination) (ruleData landed) = true ↔
      (∃ slot ∈ ruleSlots destination lower rule,
        slot.matches proxy destination addrs = true) ∧
      (proxy.engine.binaryAllowed (proxy.input destination) (ruleData rule) = true ∨ hasWildcard binary = false ∨
        (binary :: (proxy.input destination).ancestors).any (proxy.engine.builtins.globMatch binary ["/"]) = true) := by
  unfold OpaEngine.policyMatches
  rw [Bool.and_eq_true, landed_endpointAllowed safe extended, landed_binaryAllowed extended own]

/-- The first endpoint that configures is the first that speaks. -/
theorem landed_find (safe : ∀ addr ∈ addrs, ¬ UnsafeIp addr.ip)
    (extended : Extended lower destination addrs binary rule landed) :
    (ruleData landed).endpoints.find? (proxy.engine.configures (proxy.input destination)) =
      ((ruleSlots destination lower rule).find?
        (Slot.speaks proxy destination addrs)).map
          fun slot => shownEndpoint (slot.filled (proposedFor destination addrs)) := by
  have same : proxy.engine.configures (proxy.input destination) ∘
      (fun slot => shownEndpoint (slot.filled (proposedFor destination addrs))) = Slot.speaks proxy destination addrs := by
    funext slot
    exact configures_filled safe slot
  rw [landed_endpoints extended, List.find?_map, same]

/-- An endpoint that matched still does. -/
theorem matches_of_kept (lower : String → String) (addrs : List SocketAddr) {endpoint : NetworkEndpoint} (member : endpoint ∈ rule.endpoints)
    (matched : proxy.engine.endpointMatchesRequest (proxy.input destination) (shownEndpoint endpoint) = true) :
    ∃ slot ∈ ruleSlots destination lower rule,
      slot.matches proxy destination addrs = true ∧
        (proxy.engine.configures (proxy.input destination) (shownEndpoint endpoint) = true →
          slot.speaks proxy destination addrs = true) := by
  have near : reaches proxy destination endpoint = true := by
    rw [endpointMatchesRequest_eq] at matched
    unfold reaches
    simp only [OpaEngine.hostless, shownEndpoint_host, Option.getD_some, Bool.and_eq_true, Bool.or_eq_true] at matched ⊢
    obtain ⟨(exact | glob) | hostless, port⟩ := matched
    · exact ⟨.inl (.inl exact), port⟩
    · exact ⟨.inl (.inr glob), port⟩
    · exact ⟨.inr hostless.1, port⟩
  rcases mem_slots_of_mem lower (hostLc destination) destination.port.toUInt32 member with kept | joined
  · exact ⟨_, kept, matched, id⟩
  · refine ⟨_, joined, ?_, ?_⟩
    · simp only [Slot.matches]
      split
      · exact near
      · exact matched
    · intro configures
      simp only [Slot.speaks]
      split
      · exact near
      · exact configures

end Landed

/-! The loop. -/

/-- The proxy denies a connection of a known binary, to a port that may be opened and to addresses that are neither
    loopback, nor link-local, nor unspecified. -/
structure DeniedConnection (proxy : Proxy) (policy : SandboxPolicy) (destination : Destination) (addrs : List SocketAddr)
    (event : DenialEvent) : Prop where
  running : RunsOn proxy.engine.networkPolicies policy
  denied : proxy.denial destination = some event
  resolved : (proxy.decision destination.host destination.port).binary = some event.binary
  named : event.binary ≠ ""
  openPort : destination.port ∉ blockedControlPlanePorts
  looked : proxy.dialer.lookupHost (String.ofList destination.host) destination.port = .ok addrs
  answered : addrs ≠ []
  safe : ∀ addr ∈ addrs, ¬ UnsafeIp addr.ip

section Loop

variable {proxy : Proxy} {policy : SandboxPolicy} {destination : Destination} {addrs : List SocketAddr}
  {event : DenialEvent} {lower : String → String} {isAlphanumeric : Char → Bool}

/-- The addresses pass the list of the endpoint that answers, if one does. -/
def Passed (proxy : Proxy) (destination : Destination) (addrs : List SocketAddr) (found : Option EndpointData) : Prop :=
  proxy.dialer.passes (String.ofList destination.host) addrs ((found.map (·.allowedIps)).getD []) = true

theorem DeniedConnection.binaryPath (connection : DeniedConnection proxy policy destination addrs event) :
    (proxy.input destination).binaryPath = event.binary := by
  show (proxy.decision destination.host destination.port).binary.getD "" = _
  rw [connection.resolved]
  rfl

theorem allows_of_known (known : ∃ peer, proxy.identity = .ok peer) (destination : Destination) :
    proxy.Allows destination ↔ proxy.engine.networkPolicyForRequest (proxy.input destination) = true := by
  rw [Proxy.allows_iff, and_iff_right known]

theorem dials_iff (known : ∃ peer, proxy.identity = .ok peer)
    (looked : proxy.dialer.lookupHost (String.ofList destination.host) destination.port = .ok addrs)
    (answered : addrs ≠ []) (openPort : destination.port ∉ blockedControlPlanePorts)
    (safe : ∀ addr ∈ addrs, ¬ UnsafeIp addr.ip) :
    proxy.Dials destination addrs ↔ proxy.engine.networkPolicyForRequest (proxy.input destination) = true ∧
      Passed proxy destination addrs (proxy.engine.queryEndpointConfig (proxy.input destination)) := by
  have allows := allows_of_known known destination
  have resolves : proxy.resolveUpstream (proxy.decision destination.host destination.port) destination.host
      destination.port = .ok addrs ↔
        proxy.dialer.passes (String.ofList destination.host) addrs (proxy.allowedIps destination) = true :=
    Dialer.resolveUpstream_iff looked answered openPort safe
  constructor
  · rintro ⟨allowed, resolved⟩
    refine ⟨allows.mp allowed, ?_⟩
    have passed := resolves.mp resolved
    unfold Passed
    rw [← Proxy.allowedIps_eq allowed]
    exact passed
  · rintro ⟨matched, passed⟩
    have allowed := allows.mpr matched
    refine ⟨allowed, resolves.mpr ?_⟩
    unfold Passed at passed
    rw [← Proxy.allowedIps_eq allowed] at passed
    exact passed

theorem input_reloaded (policies : PolicyObject) : (reloaded proxy policies).input destination = proxy.input destination := by
  unfold Proxy.input Proxy.decision evaluateOpaTcp reloaded
  cases proxy.identity <;> rfl

theorem denial_event (denied : proxy.denial destination = some event) :
    event.host = hostLc destination ∧ event.port = destination.port := by
  unfold Proxy.denial at denied
  simp only at denied
  split at denied
  · cases denied
    exact ⟨rfl, rfl⟩
  · split at denied
    · cases denied
      exact ⟨rfl, rfl⟩
    · cases denied

theorem not_dials_of_denial (denied : proxy.denial destination = some event) : ¬ proxy.Dials destination addrs := by
  rintro ⟨⟨name, allowed⟩, resolved⟩
  unfold Proxy.denial at denied
  simp only [allowed, resolved] at denied
  cases denied

variable {merged : SandboxPolicy} {name : String} {rule landed : NetworkPolicyRule} {policies : PolicyObject}

/-- The loaded policy differs in the landing rule alone, and that rule has grown. -/
theorem amends_of_landed (running : RunsOn proxy.engine.networkPolicies policy) (runs : RunsOn policies merged)
    (safe : ∀ addr ∈ addrs, ¬ UnsafeIp addr.ip) (lands : Landed policy merged name rule landed)
    {binary : String} (extended : Extended lower destination addrs binary rule landed)
    (own : (proxy.input destination).binaryPath = binary) :
    Amends proxy.engine policies (proxy.input destination) name (ruleData landed) where
  others := by
    rintro ⟨other, data⟩ differs
    rw [mem_of_runsOn runs, mem_of_runsOn running, lands.others other differs]
  stored := (mem_of_runsOn runs).mpr ⟨landed, lands.after, rfl⟩
  matched := by
    intro held stored matched
    obtain ⟨existing, present, rfl⟩ := (mem_of_runsOn running).mp stored
    rw [lands.before existing present] at matched
    unfold OpaEngine.policyMatches at matched ⊢
    rw [Bool.and_eq_true] at matched ⊢
    obtain ⟨endpoint, inside, fits⟩ := endpointAllowed_iff.mp matched.1
    obtain ⟨original, originalIn, rfl⟩ := List.mem_map.mp inside
    obtain ⟨slot, member, still, _⟩ := matches_of_kept lower addrs originalIn fits
    exact ⟨(landed_endpointAllowed safe extended).mpr ⟨slot, member, still⟩,
      (landed_binaryAllowed extended own).mpr (.inl matched.2)⟩
  configured := by
    intro held stored endpoint inside configures
    obtain ⟨existing, present, rfl⟩ := (mem_of_runsOn running).mp stored
    rw [lands.before existing present] at inside
    obtain ⟨original, originalIn, rfl⟩ := List.mem_map.mp inside
    have matched : proxy.engine.endpointMatchesRequest (proxy.input destination) (shownEndpoint original) = true := by
      unfold OpaEngine.configures at configures
      rw [Bool.and_eq_true] at configures
      exact configures.1
    obtain ⟨slot, member, _, speaks⟩ := matches_of_kept lower addrs originalIn matched
    rw [landed_endpoints extended]
    exact ⟨_, List.mem_map.mpr ⟨slot, member, rfl⟩, by rw [configures_filled safe slot]; exact speaks configures⟩

/-- The sandbox accepts the merged policy exactly where it accepts the host of a new endpoint. -/
theorem accepted_merged (accepted : Accepted policy) (lands : Landed policy merged name rule landed)
    (extended : Extended lower destination addrs binary rule landed) :
    Accepted merged ↔ (Slot.fresh ∈ ruleSlots destination lower rule →
      (checkHost "" (hostLc destination)).errors = []) := by
  have known : ∀ endpoint ∈ rule.endpoints, EndpointAccepted endpoint := by
    rcases lands.origin with present | empty
    · exact accepted name rule present
    · rw [empty]
      intro endpoint member
      cases member
  have plain : EndpointAccepted (proposedFor destination addrs) ↔ (checkHost "" (hostLc destination)).errors = [] :=
    endpointAccepted_plain ..
  constructor
  · intro passes fresh
    have inside : proposedFor destination addrs ∈ landed.endpoints := by
      rw [extended.endpoints]
      exact List.mem_map.mpr ⟨.fresh, fresh, rfl⟩
    exact plain.mp (passes name landed lands.after _ inside)
  · intro clean other held present endpoint inside
    by_cases own : other = name
    · rw [own, lands.after] at present
      cases present
      rw [extended.endpoints] at inside
      obtain ⟨slot, member, rfl⟩ := List.mem_map.mp inside
      cases slot with
      | kept original => exact known original (mem_of_mem_slots (.inl member))
      | joined original =>
        exact (endpointAccepted_withIps original _).mpr (known original (mem_of_mem_slots (.inr member)))
      | fresh => exact plain.mpr (clean member)
    · rw [lands.others other own] at present
      exact accepted other held present endpoint inside

theorem silentBelow_iff (running : RunsOn proxy.engine.networkPolicies policy) :
    SilentBelow proxy.engine (proxy.input destination) name ↔
      ∀ other rule, policy.networkPolicies.lookup other = some rule → other < name →
        proxy.engine.policyMatches (proxy.input destination) (ruleData rule) = true → ∀ endpoint ∈ rule.endpoints,
          proxy.engine.configures (proxy.input destination) (shownEndpoint endpoint) = false := by
  constructor
  · intro quiet other rule present smaller matched endpoint inside
    exact quiet (other, ruleData rule) ((mem_of_runsOn running).mpr ⟨rule, present, rfl⟩) smaller matched _
      (List.mem_map_of_mem inside)
  · rintro quiet ⟨other, data⟩ stored smaller matched endpoint inside
    obtain ⟨rule, present, rfl⟩ := (mem_of_runsOn running).mp stored
    obtain ⟨original, originalIn, rfl⟩ := List.mem_map.mp inside
    exact quiet other rule present smaller matched original originalIn

theorem passed_filled (lawful : proxy.dialer.nets.Lawful) (safe : ∀ addr ∈ addrs, ¬ UnsafeIp addr.ip) (slot : Slot) :
    Passed proxy destination addrs (some (shownEndpoint (slot.filled (proposedFor destination addrs)))) ↔
      slot.passes proxy destination addrs = true := by
  unfold Passed
  rw [Option.map_some, Option.getD_some, shownEndpoint_allowedIps, passes_filled lawful safe]

/-- Whatever object the engine has loaded from the merged policy, the landing rule decides. -/
theorem redials_iff (lawful : proxy.dialer.nets.Lawful) (known : ∃ peer, proxy.identity = .ok peer)
    (connection : DeniedConnection proxy policy destination addrs event) (runs : RunsOn policies merged)
    (lands : Landed policy merged name rule landed)
    (extended : Extended lower destination addrs event.binary rule landed) :
    (reloaded proxy policies).Dials destination addrs ↔
      SilentBelow proxy.engine (proxy.input destination) name ∧
      proxy.engine.policyMatches (proxy.input destination) (ruleData landed) = true ∧
      ((ruleSlots destination lower rule).find?
        (Slot.speaks proxy destination addrs)).elim
          (¬ proxy.Allows destination ∧ proxy.dialer.passes (String.ofList destination.host) addrs [] = true)
          fun slot => slot.passes proxy destination addrs = true := by
  have safe := connection.safe
  have own := connection.binaryPath
  have allows := allows_of_known known destination
  have refused : ¬ (proxy.engine.networkPolicyForRequest (proxy.input destination) = true ∧
      Passed proxy destination addrs (proxy.engine.queryEndpointConfig (proxy.input destination))) := by
    rw [← dials_iff known connection.looked connection.answered connection.openPort safe]
    exact not_dials_of_denial connection.denied
  have amends := amends_of_landed connection.running runs safe lands extended own
  have dials : (reloaded proxy policies).Dials destination addrs ↔ _ :=
    dials_iff known connection.looked connection.answered connection.openPort safe
  rw [input_reloaded] at dials
  refine (dials.trans (amends.passes_iff refused)).trans ?_
  rw [landed_find safe extended, allows]
  apply and_congr_right
  intro _
  apply and_congr_right
  intro _
  cases (ruleSlots destination lower rule).find?
      (Slot.speaks proxy destination addrs) with
  | none => rfl
  | some slot => exact passed_filled lawful safe slot

/-- Under the merged policy the connection is let through exactly where the condition holds of the policy before. -/
theorem reopened_iff (lawful : proxy.dialer.nets.Lawful)
    (connection : DeniedConnection proxy policy destination addrs event)
    (lands : Landed policy merged (landing destination lower isAlphanumeric policy).1
      (landing destination lower isAlphanumeric policy).2 landed)
    (extended : Extended lower destination addrs event.binary (landing destination lower isAlphanumeric policy).2
      landed) :
    (∃ policies, RunsOn policies merged ∧ (reloaded proxy policies).Dials destination addrs) ↔
      Opens proxy destination addrs lower isAlphanumeric policy event.binary := by
  have own := connection.binaryPath
  have loads := accepted_merged (runsOn_iff.mp connection.running).1 lands extended
  constructor
  · rintro ⟨policies, runs, dials⟩
    have known : ∃ peer, proxy.identity = .ok peer := (Proxy.allows_iff.mp dials.allowed).1
    obtain ⟨quiet, fits, decided⟩ := (redials_iff lawful known connection runs lands extended).mp dials
    obtain ⟨matched, binary⟩ := (landed_policyMatches connection.safe extended own).mp fits
    exact ⟨known, (silentBelow_iff connection.running).mp quiet, binary, matched, decided,
      loads.mp (runsOn_iff.mp runs).1⟩
  · intro opens
    obtain ⟨policies, runs⟩ := exists_runsOn (loads.mpr opens.loads)
    have fits := (landed_policyMatches connection.safe extended own).mpr ⟨opens.matched, opens.binary⟩
    refine ⟨policies, runs, ?_⟩
    rw [redials_iff lawful opens.identified connection runs lands extended]
    exact ⟨(silentBelow_iff connection.running).mpr opens.silent, fits, opens.decided⟩

end Loop

/-! From the denial to the merged policy. -/

section Drafted

variable {proxy : Proxy} {policy : SandboxPolicy} {destination : Destination} {addrs : List SocketAddr}
  {event : DenialEvent} {isAlphanumeric : Char → Bool} {lookupHost : String → Except String (List SocketAddr)}
  {events : List (Int × DenialEvent)} {store : Store Blob} {sandboxId : String}

theorem Landed.congr {merged other : SandboxPolicy} {name : String} {rule landed : NetworkPolicyRule}
    (same : other.Same merged) (lands : Landed policy merged name rule landed) : Landed policy other name rule landed where
  before := lands.before
  origin := lands.origin
  after := by rw [same.lookup, lands.after]
  others key differs := by rw [same.lookup, lands.others key differs]

theorem toInt32_toUInt32 (port : UInt16) : port.toUInt32.toInt32.toUInt32 = port.toUInt32 := by
  simp

theorem generateRuleName_ne_empty (host : String) (port : UInt32) :
    (Mapper.generateRuleName isAlphanumeric host port).isEmpty = false := by
  unfold Mapper.generateRuleName
  simp

/-- The row of the proposal, and the rule it holds. -/
theorem submitted_plain (wire : Wire Blob) (lower : String → String) (id : String) (nowMs : Int)
    {chunk : Mapper.PolicyChunk} {ips : List String}
    (named : chunk.ruleName = Mapper.generateRuleName isAlphanumeric (hostLc destination) destination.port.toUInt32)
    (proposed : chunk.proposedRule = some (Mapper.plainRule isAlphanumeric (hostLc destination)
      destination.port.toUInt32 event.binary ips)) :
    ∃ record, submittedRecord wire lower id sandboxId nowMs chunk = some record ∧
      Records lower record (Mapper.generateRuleName isAlphanumeric (hostLc destination) destination.port.toUInt32)
        (hostLc destination) destination.port.toUInt32 ∧
      wire.decodeRule record.proposedRule = .ok (Mapper.plainRule isAlphanumeric (hostLc destination)
        destination.port.toUInt32 event.binary ips) := by
  have taken : chunk.ruleName.isEmpty = false := by
    rw [named]
    exact generateRuleName_ne_empty _ _
  unfold submittedRecord
  rw [taken, proposed]
  refine ⟨_, rfl, ⟨named, rfl, ?_⟩, wire.rule_round_trip _⟩
  exact toInt32_toUInt32 destination.port

/-- With a proposal approved that was drafted from the denials, the connection is let through exactly where the
    condition holds of the policy before. -/
theorem closes_iff_opens (wire : Wire Blob) (lower : String → String) (lawful : proxy.dialer.nets.Lawful)
    (connection : DeniedConnection proxy policy destination addrs event)
    (sameAnswers : lookupHost (hostLc destination ++ ":" ++ toString destination.port.toUInt32) = .ok addrs)
    (emitted : ∀ entry ∈ events, entry.2.Emitted) (current : currentPolicy wire store sandboxId = .ok policy)
    {chunk : Mapper.PolicyChunk}
    (drafted : chunk ∈ Mapper.generateProposals isAlphanumeric lookupHost (collected events))
    (answers : chunk.Answers event) (id : String) (nowMs : Int) :
    ∃ record, submittedRecord wire lower id sandboxId nowMs chunk = some record ∧
      (Closes wire lower store sandboxId record proxy destination addrs ↔
        Opens proxy destination addrs lower isAlphanumeric policy event.binary) := by
  obtain ⟨sameHost, samePort⟩ := denial_event connection.denied
  obtain ⟨named, proposed⟩ := Mapper.proposed_plain drafted answers connection.named (collected_plain emitted)
  have ips : Mapper.resolveAllowedIpsIfPrivate lookupHost (hostLc destination) destination.port.toUInt32 =
      Mapper.allowedIpsFor addrs := by
    unfold Mapper.resolveAllowedIpsIfPrivate
    rw [sameAnswers]
  rw [sameHost, samePort] at named proposed
  rw [ips] at proposed
  obtain ⟨record, submitted, records, decoded⟩ := submitted_plain wire lower id nowMs named proposed
  refine ⟨record, submitted, ?_⟩
  have ran := run_mergeChunkIntoPolicy wire lower ⟨decoded, current⟩
  obtain ⟨landed, lands, endpoints, binaries⟩ := mergeChunk_landed policy records
    (Mapper.plainRule isAlphanumeric (hostLc destination) destination.port.toUInt32 event.binary
      (Mapper.allowedIpsFor addrs)) rfl rfl rfl rfl
  obtain ⟨result, reread, same⟩ := currentPolicy_appendRevision wire store sandboxId _ _
  rw [← reopened_iff lawful connection (lands.congr same) ⟨endpoints, binaries⟩]
  constructor
  · intro closes
    exact closes _ _ result ran reread
  · intro reopened written approved other again reading
    rw [ran] at again
    cases again
    rw [reread] at reading
    cases reading
    exact reopened

/-- A denied connection gets a proposal, and with it approved the connection is let through exactly where the
    condition holds. -/
theorem draft_closes_iff (wire : Wire Blob) (lower : String → String) (lawful : proxy.dialer.nets.Lawful)
    (connection : DeniedConnection proxy policy destination addrs event)
    (sameAnswers : lookupHost (hostLc destination ++ ":" ++ toString destination.port.toUInt32) = .ok addrs)
    (emitted : ∀ entry ∈ events, entry.2.Emitted) (listed : ∃ nowMs, (nowMs, event) ∈ events)
    (current : currentPolicy wire store sandboxId = .ok policy) :
    (∃ chunk ∈ Mapper.generateProposals isAlphanumeric lookupHost (collected events), chunk.Answers event) ∧
      ∀ chunk ∈ Mapper.generateProposals isAlphanumeric lookupHost (collected events), chunk.Answers event →
        ∀ id nowMs, ∃ record, submittedRecord wire lower id sandboxId nowMs chunk = some record ∧
          (Closes wire lower store sandboxId record proxy destination addrs ↔
            Opens proxy destination addrs lower isAlphanumeric policy event.binary) := by
  obtain ⟨nowMs, member⟩ := listed
  refine ⟨Mapper.exists_proposal (collected_key emitted member), ?_⟩
  intro chunk drafted answers id nowMs
  exact closes_iff_opens wire lower lawful connection sameAnswers emitted current drafted answers id nowMs

end Drafted

section Example

def shownPolicies (policy : SandboxPolicy) : PolicyObject :=
  loadedPolicies policy fun endpoint => expandAccess (protoEndpointJson endpoint)

def storeOf (policy : SandboxPolicy) : Store Message :=
  ({} : Store Message).appendRevision "sb" (plainWire.encodePolicy policy) ""

theorem current_storeOf (policy : SandboxPolicy) : currentPolicy plainWire (storeOf policy) "sb" = .ok policy := by
  simp only [storeOf, currentPolicy, Store.getLatestPolicy_appendRevision]
  rfl

theorem runsOn_shown {policy : SandboxPolicy} (clean : (validateL7Policies (protoToOpaDataJson policy)).errors = []) :
    RunsOn (shownPolicies policy) policy := runsOn_iff.mpr ⟨errors_proto.mp clean, rfl, rfl⟩

theorem privateIp_safe : ∀ addr ∈ [(⟨privateIp, 443⟩ : SocketAddr)], ¬ UnsafeIp addr.ip := by
  intro addr member
  rw [List.mem_singleton.mp member, ← isAlwaysBlockedIp_iff]
  decide

def privateLookup (_ : String) : Except String (List SocketAddr) := .ok [⟨privateIp, 443⟩]

/-- Another rule is for all hosts of the domain, with inspection and without addresses. -/
def acmePolicy : SandboxPolicy :=
  { networkPolicies := AList.singleton "acme"
      { endpoints := [{ host := "*.example", ports := [443], protocol := "rest", access := "full" }]
        binaries := [{ path := "/usr/bin/curl" }] } }

def acmeProxy : Proxy := curlProxy (shownPolicies acmePolicy) privateIp

def acmeEvent : DenialEvent :=
  emitDenial "api.example" 443 "/usr/bin/curl" (acmeProxy.decision apiDestination.host apiDestination.port)
    "api.example resolves to internal address 10.0.0.5, connection rejected" "ssrf"

theorem acmeEvent_emitted : ∀ entry ∈ [((0 : Int), acmeEvent)], entry.2.Emitted := by
  intro entry member
  rw [List.mem_singleton.mp member]
  exact ⟨_, _, _, _, _, _, rfl⟩

theorem acme_denied : DeniedConnection acmeProxy acmePolicy apiDestination [⟨privateIp, 443⟩] acmeEvent where
  running := runsOn_shown (by decide +kernel)
  denied := by decide +kernel
  resolved := by decide +kernel
  named := by decide +kernel
  openPort := by decide
  looked := rfl
  answered := by decide
  safe := privateIp_safe

/-- The proposal brings the address in a rule of its own, and the other rule still has the say. -/
theorem acme_stillBlocked :
    DeniedConnection acmeProxy acmePolicy apiDestination [⟨privateIp, 443⟩] acmeEvent ∧
      ∃ chunk ∈ Mapper.generateProposals Char.isAlphanum privateLookup (collected [(0, acmeEvent)]),
        chunk.Answers acmeEvent ∧
          ∃ record, submittedRecord plainWire String.toLower "c1" "sb" 0 chunk = some record ∧
            ¬ Closes plainWire String.toLower (storeOf acmePolicy) "sb" record acmeProxy apiDestination
              [⟨privateIp, 443⟩] := by
  have sameAnswers : privateLookup (hostLc apiDestination ++ ":" ++ toString apiDestination.port.toUInt32) =
      .ok [⟨privateIp, 443⟩] := rfl
  have proposed : ∃ chunk ∈ Mapper.generateProposals Char.isAlphanum privateLookup (collected [(0, acmeEvent)]),
      chunk.Answers acmeEvent :=
    Mapper.exists_proposal (collected_key acmeEvent_emitted (List.mem_singleton.mpr rfl))
  obtain ⟨chunk, drafted, answers⟩ := proposed
  obtain ⟨record, submitted, closes⟩ := closes_iff_opens plainWire String.toLower bareNets_lawful acme_denied sameAnswers
    acmeEvent_emitted (current_storeOf acmePolicy) drafted answers "c1" 0
  refine ⟨acme_denied, chunk, drafted, answers, record, submitted, ?_⟩
  rw [closes]
  intro opens
  have quiet := opens.silent "acme" _ rfl (by decide +kernel) (by decide +kernel) _ (List.mem_singleton.mpr rfl)
  revert quiet
  decide +kernel

def gitEndpoint : NetworkEndpoint := { host := "api.example", ports := [443] }

/-- The endpoint is there for another binary. -/
def gitPolicy : SandboxPolicy :=
  { networkPolicies := AList.singleton "git" { endpoints := [gitEndpoint], binaries := [{ path := "/usr/bin/git" }] } }

def gitProxy : Proxy := curlProxy (shownPolicies gitPolicy) privateIp

def gitEvent : DenialEvent :=
  emitDenial "api.example" 443 "/usr/bin/curl" (gitProxy.decision apiDestination.host apiDestination.port)
    "binary '/usr/bin/curl' (ancestors: [], cmdline: []) not allowed in policy 'git'" "connect"

theorem gitEvent_emitted : ∀ entry ∈ [((0 : Int), gitEvent)], entry.2.Emitted := by
  intro entry member
  rw [List.mem_singleton.mp member]
  exact ⟨_, _, _, _, _, _, rfl⟩

theorem git_denied : DeniedConnection gitProxy gitPolicy apiDestination [⟨privateIp, 443⟩] gitEvent where
  running := runsOn_shown (by decide +kernel)
  denied := by decide +kernel
  resolved := by decide +kernel
  named := by decide +kernel
  openPort := by decide
  looked := rfl
  answered := by decide
  safe := privateIp_safe

theorem git_opens :
    Opens gitProxy apiDestination [⟨privateIp, 443⟩] String.toLower Char.isAlphanum gitPolicy "/usr/bin/curl" where
  identified := ⟨_, rfl⟩
  silent := by
    intro name rule present smaller
    have only : (⟨name, rule⟩ : Σ _ : String, NetworkPolicyRule) ∈ gitPolicy.networkPolicies.entries :=
      AList.mem_lookup_iff.mp present
    cases List.mem_singleton.mp only
    revert smaller
    decide +kernel
  binary := .inr (.inl (by decide +kernel))
  matched := by decide +kernel
  decided := by
    have found : (landingSlots apiDestination String.toLower Char.isAlphanum gitPolicy).find?
        (Slot.speaks gitProxy apiDestination [⟨privateIp, 443⟩]) = some (.joined gitEndpoint) := by
      decide +kernel
    rw [found, Option.elim_some]
    decide +kernel
  loads := by decide +kernel

theorem git_draftCloses :
    ∃ chunk ∈ Mapper.generateProposals Char.isAlphanum privateLookup (collected [(0, gitEvent)]),
      ∃ record, submittedRecord plainWire String.toLower "c1" "sb" 0 chunk = some record ∧
        Closes plainWire String.toLower (storeOf gitPolicy) "sb" record gitProxy apiDestination [⟨privateIp, 443⟩] := by
  have sameAnswers : privateLookup (hostLc apiDestination ++ ":" ++ toString apiDestination.port.toUInt32) =
      .ok [⟨privateIp, 443⟩] := rfl
  have drafts := @draft_closes_iff Message gitProxy gitPolicy apiDestination [⟨privateIp, 443⟩] gitEvent Char.isAlphanum
    privateLookup [(0, gitEvent)] (storeOf gitPolicy) "sb" plainWire String.toLower bareNets_lawful git_denied sameAnswers
    gitEvent_emitted ⟨0, List.mem_singleton.mpr rfl⟩ (current_storeOf gitPolicy)
  obtain ⟨⟨chunk, drafted, answers⟩, closes⟩ := drafts
  obtain ⟨record, submitted, same⟩ := closes chunk drafted answers "c1" 0
  exact ⟨chunk, drafted, record, submitted, same.mpr git_opens⟩

end Example

end OpenShell.Server
