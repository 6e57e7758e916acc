import Mathlib.Data.List.Destutter
import OpenShell.Lib.IpText
import OpenShell.Policy.Model
import OpenShell.Sandbox.Destinations

namespace OpenShell.Sandbox

open OpenShell.Policy Text Net

/-! From a denied connection to a rule that would allow it: the events of the proxy, the summaries they are
collected into, and the rules drafted from those. -/

/-! Events. -/

structure DenialEvent where
  host : String
  port : UInt16
  binary : String
  ancestors : List String
  denyReason : String
  denialStage : String
  l7Method : Option String
  l7Path : Option String
deriving DecidableEq

def emitDenial (host : String) (port : UInt16) (binary : String) (decision : ConnectDecision) (reason stage : String) :
    DenialEvent :=
  { host, port, binary, ancestors := decision.ancestors, denyReason := reason, denialStage := stage, l7Method := none,
    l7Path := none }

/-- The event for a connection that the policy denies, or whose addresses are refused. -/
def Proxy.denial (proxy : Proxy) (destination : Destination) : Option DenialEvent :=
  let decision := proxy.decision destination.host destination.port
  let emit := emitDenial (String.ofList (toAsciiLowercase destination.host)) destination.port
    (decision.binary.getD "-") decision
  match decision.action with
  | .deny reason => some (emit reason "connect")
  | .allow _ =>
    match proxy.resolveUpstream decision destination.host destination.port with
    | .error reason => some (emit reason "ssrf")
    | .ok _ => none

/-! Summaries. -/

abbrev DenialKey : Type := String × UInt16 × String

structure L7RequestSample where
  method : String
  path : String
  decision : String := "deny"
  count : UInt32
deriving DecidableEq

structure AggregatedDenial where
  host : String
  port : UInt16
  binary : String
  ancestors : List String
  denyReason : String
  denialStage : String
  firstSeenMs : Int
  lastSeenMs : Int
  count : UInt32 := 0
  l7Samples : List L7RequestSample := []

structure DenialSummary where
  host : String
  port : UInt32
  binary : String
  ancestors : List String := []
  denyReason : String := ""
  denialStage : String
  firstSeenMs : Int
  lastSeenMs : Int
  count : UInt32
  l7RequestSamples : List L7RequestSample := []
  l7InspectionActive : Bool := false

def maxL7Samples : Nat := 20

/-- A sample that is there is counted, and a new one is kept while there is room. -/
def addSample (method path : String) (samples : List L7RequestSample) : List L7RequestSample :=
  if samples.any fun sample => sample.method == method && sample.path == path then
    samples.map fun sample =>
      if sample.method == method && sample.path == path then { sample with count := sample.count + 1 } else sample
  else if samples.length < maxL7Samples then samples ++ [{ method, path, count := 1 }]
  else samples

abbrev Denials : Type := AList fun _ : DenialKey => AggregatedDenial

def DenialEvent.key (event : DenialEvent) : DenialKey := (event.host, event.port, event.binary)

def firstSeen (nowMs : Int) (event : DenialEvent) : AggregatedDenial :=
  { host := event.host, port := event.port, binary := event.binary, ancestors := event.ancestors,
    denyReason := event.denyReason, denialStage := event.denialStage, firstSeenMs := nowMs, lastSeenMs := nowMs }

def AggregatedDenial.seenAgain (entry : AggregatedDenial) (nowMs : Int) (event : DenialEvent) : AggregatedDenial :=
  let l7Samples :=
    match event.l7Method, event.l7Path with
    | some method, some path => addSample method path entry.l7Samples
    | _, _ => entry.l7Samples
  { entry with count := entry.count + 1, lastSeenMs := nowMs, l7Samples }

def ingest (summaries : Denials) (nowMs : Int) (event : DenialEvent) : Denials :=
  let entry := (summaries.lookup event.key).getD (firstSeen nowMs event)
  summaries.insert event.key (entry.seenAgain nowMs event)

def AggregatedDenial.summary (denial : AggregatedDenial) : DenialSummary where
  host := denial.host
  port := denial.port.toUInt32
  binary := denial.binary
  ancestors := denial.ancestors
  denyReason := denial.denyReason
  denialStage := denial.denialStage
  firstSeenMs := denial.firstSeenMs
  lastSeenMs := denial.lastSeenMs
  count := denial.count
  l7RequestSamples := denial.l7Samples

def drain (summaries : Denials) : List DenialSummary := summaries.entries.map fun entry => entry.2.summary

/-- What is flushed after the events have come in, each at its time. -/
def collected (events : List (Int × DenialEvent)) : List DenialSummary :=
  drain (events.foldl (fun summaries event => ingest summaries event.1 event.2) ∅)

/-! The mechanistic mapper. `isAlphanumeric` is `char::is_alphanumeric` and `lookupHost` the resolver, asked for a
host and a port in one text. The confidence of a proposal, a floating point number, and the order of the proposals,
which it decides, are left out. -/

namespace Mapper

structure PolicyChunk where
  status : String
  ruleName : String
  proposedRule : Option NetworkPolicyRule
  rationale : String
  securityNotes : String
  stage : String
  hitCount : Int32
  firstSeenMs : Int
  lastSeenMs : Int
  binary : String

def wellKnownPorts : List (UInt16 × String) :=
  [(80, "HTTP"), (443, "HTTPS"), (8080, "HTTP-alt"), (8443, "HTTPS-alt"), (5432, "PostgreSQL"), (3306, "MySQL"),
    (6379, "Redis"), (27017, "MongoDB"), (9200, "Elasticsearch"), (9092, "Kafka"), (2181, "ZooKeeper"),
    (11211, "Memcached"), (5672, "RabbitMQ"), (6443, "Kubernetes API"), (53, "DNS"), (587, "SMTP"), (993, "IMAP"),
    (995, "POP3")]

def databasePorts : List UInt16 := [5432, 3306, 6379, 27017, 9200, 11211, 5672]

def looksInternal (host : String) : Bool :=
  "10.".toList.isPrefixOf host.toList || "172.".toList.isPrefixOf host.toList ||
    "192.168.".toList.isPrefixOf host.toList || host == "localhost" || "127.".toList.isPrefixOf host.toList

def generateSecurityNotes (host : String) (port : UInt16) (isSsrf : Bool) : String :=
  " ".intercalate <|
    (if isSsrf then
      ["This connection was blocked by SSRF protection. Allowing it bypasses internal-IP safety checks."] else []) ++
    (if looksInternal host then ["Destination '" ++ host ++ "' appears to be an internal/private address."] else []) ++
    (if 49152 < port then
      ["Port " ++ toString port ++ " is in the ephemeral range — this may be a temporary service."] else []) ++
    (if databasePorts.contains port then
      ["Port " ++ toString port ++ " is a well-known database/service port. " ++
        "Consider restricting with L7 rules or read-only access."] else [])

def generateRuleName (isAlphanumeric : Char → Bool) (host : String) (port : UInt32) : String :=
  let sanitized := (host.toList.map fun c => if c = '.' ∨ c = '-' then '_' else c).filter fun c =>
    isAlphanumeric c || c = '_'
  "allow_" ++ String.ofList sanitized ++ "_" ++ toString port

def shortBinaryName (path : String) : String := String.ofList ((split '/' path.toList).getLast?.getD path.toList)

/-! Rules for the requests that were seen. -/

def isHexDigit (c : Char) : Bool := (toDigit 16 c).isSome

def looksLikeId (segment : List Char) : Bool :=
  let hexOnly := segment.filter isHexDigit
  !segment.isEmpty &&
    ((segment.all Char.isDigit && 2 ≤ segment.length) ||
      (24 ≤ hexOnly.length && segment.contains '-') ||
      (16 ≤ hexOnly.length && segment.length = hexOnly.length))

/-- The query is dropped, and a last segment that looks like an identifier becomes a wildcard. -/
def generalisePath (raw : List Char) : List Char :=
  let path := raw.takeWhile (· ≠ '?')
  let segments := split '/' path
  if segments.length ≤ 1 then path
  else if looksLikeId (segments.getLast?.getD []) then join ['/'] segments.dropLast ++ ['/', '*']
  else path

def sampleBefore (first second : String × String) : Bool :=
  first.1 < second.1 || (first.1 == second.1 && first.2 ≤ second.2)

def buildL7Rules (samples : List (String × String)) : List L7Rule :=
  let rules := (samples.map fun sample => (sample.1, String.ofList (generalisePath sample.2.toList))).dedup
  (rules.mergeSort sampleBefore).map fun rule => { allow := some { method := rule.1, path := rule.2 } }

/-! Addresses. -/

def isInternalIpv4 (addr : Ipv4Addr) : Bool := addr.isLoopback || addr.isPrivate || addr.isLinkLocal

def isInternalIp : IpAddr → Bool
  | .v4 addr => isInternalIpv4 addr
  | .v6 addr =>
    if addr.isLoopback then true
    else if addr.segment 0 &&& 0xFFC0 = 0xFE80 then true
    else if addr.segment 0 &&& 0xFE00 = 0xFC00 then true
    else
      match addr.toIpv4Mapped with
      | some mapped => isInternalIpv4 mapped
      | none => false

/-- The addresses as texts, in order and each once, if one of them is internal. -/
def allowedIpsFor (addrs : List SocketAddr) : List String :=
  if addrs.any (isInternalIp ·.ip) then
    ((addrs.map fun addr => addr.ip.text).mergeSort fun first second => first ≤ second).destutter (· ≠ ·)
  else []

variable (isAlphanumeric : Char → Bool) (lookupHost : String → Except String (List SocketAddr))

def resolveAllowedIpsIfPrivate (host : String) (port : UInt32) : List String :=
  match lookupHost (host ++ ":" ++ toString port) with
  | .error _ => []
  | .ok addrs => allowedIpsFor addrs

/-! Proposals. -/

def summaryKey (summary : DenialSummary) : String × UInt32 × String := (summary.host, summary.port, summary.binary)

def proposedEndpoint (host : String) (port : UInt32) (allowedIps : List String) (hasL7 : Bool) (rules : List L7Rule) :
    NetworkEndpoint :=
  if hasL7 && !rules.isEmpty then
    { host, port, ports := [port], protocol := "rest", enforcement := "enforce", rules, allowedIps }
  else { host, port, ports := [port], allowedIps }

def rationale (host : String) (port : UInt32) (binary : String) (allowedIps : List String) (hasL7 : Bool)
    (samples : List (String × String)) : String :=
  let binaryList := if binary.isEmpty then "unknown binary" else shortBinaryName binary
  let portName := ((wellKnownPorts.find? fun known => known.1 = port.toUInt16).map fun known =>
    " (" ++ known.2 ++ ")").getD ""
  let privateIpNote := if allowedIps.isEmpty then ""
    else " Host resolves to private IP (" ++ ", ".intercalate allowedIps ++
      "); allowed_ips included for SSRF override."
  let paths := samples.map fun sample => sample.1 ++ " " ++ sample.2
  "Allow " ++ binaryList ++ " to connect to " ++ host ++ ":" ++ toString port ++ portName ++
    if hasL7 && !samples.isEmpty then
      " with L7 inspection. Allowed paths: " ++ ", ".intercalate paths ++ "." ++ privateIpNote
    else "." ++ privateIpNote

/-- The proposal for the denials of one host, port and binary. -/
def proposal (key : String × UInt32 × String) (denials : List DenialSummary) : PolicyChunk :=
  let (host, port, binary) := key
  let ruleName := generateRuleName isAlphanumeric host port
  let isSsrf := denials.any fun denial => denial.denialStage == "ssrf"
  let samples := (denials.flatMap fun denial =>
    denial.l7RequestSamples.map fun sample => (sample.method, sample.path)).dedup
  let hasL7 := denials.any fun denial => denial.l7InspectionActive || !denial.l7RequestSamples.isEmpty
  let allowedIps := resolveAllowedIpsIfPrivate lookupHost host port
  { status := "pending"
    ruleName
    proposedRule := some
      { name := ruleName
        endpoints := [proposedEndpoint host port allowedIps hasL7 (buildL7Rules samples)]
        binaries := if binary.isEmpty then [] else [{ path := binary }] }
    rationale := rationale host port binary allowedIps hasL7 samples
    securityNotes := generateSecurityNotes host port.toUInt16 isSsrf
    stage := (denials.head?.map DenialSummary.denialStage).getD "connect"
    hitCount := ((denials.map DenialSummary.count).foldl (· + ·) 0).toInt32
    firstSeenMs := (denials.map DenialSummary.firstSeenMs).foldl min (2 ^ 63 - 1)
    lastSeenMs := (denials.map DenialSummary.lastSeenMs).foldl max 0
    binary }

/-- One proposal for each host, port and binary. -/
def generateProposals (summaries : List DenialSummary) : List PolicyChunk :=
  ((summaries.map summaryKey).dedup).map fun key =>
    proposal isAlphanumeric lookupHost key (summaries.filter fun summary => summaryKey summary = key)

end Mapper

/-! What is collected. -/

section Collected

/-- The event was made by `emit_denial`, which tells nothing of requests. -/
def DenialEvent.Emitted (event : DenialEvent) : Prop :=
  ∃ host port binary decision reason stage, event = emitDenial host port binary decision reason stage

/-- Each summary is kept under its own key, and has no samples. -/
def Sampleless (summaries : Denials) : Prop :=
  ∀ key denial, summaries.lookup key = some denial →
    (denial.host, denial.port, denial.binary) = key ∧ denial.l7Samples = []

variable {summaries : Denials}

theorem seenAgain_emitted {event : DenialEvent} (emitted : event.Emitted) (entry : AggregatedDenial) (nowMs : Int) :
    (entry.seenAgain nowMs event).l7Samples = entry.l7Samples := by
  obtain ⟨host, port, binary, decision, reason, stage, rfl⟩ := emitted
  rfl

theorem sampleless_ingest {event : DenialEvent} (emitted : event.Emitted) (nowMs : Int) (clean : Sampleless summaries) :
    Sampleless (ingest summaries nowMs event) := by
  intro key denial found
  unfold ingest at found
  by_cases own : key = event.key
  · rw [own, AList.lookup_insert] at found
    cases found
    rw [own, seenAgain_emitted emitted]
    cases before : summaries.lookup event.key with
    | none => exact ⟨rfl, rfl⟩
    | some earlier => exact clean _ _ before
  · rw [AList.lookup_insert_ne own] at found
    exact clean key denial found

theorem lookup_ingest (summaries : Denials) (nowMs : Int) (event : DenialEvent) :
    ((ingest summaries nowMs event).lookup event.key).isSome = true := by
  unfold ingest
  rw [AList.lookup_insert]
  rfl

theorem lookup_ingest_of_some {nowMs : Int} {event : DenialEvent} {key : DenialKey}
    (present : (summaries.lookup key).isSome = true) :
    ((ingest summaries nowMs event).lookup key).isSome = true := by
  unfold ingest
  by_cases own : key = event.key
  · rw [own, AList.lookup_insert]
    rfl
  · rw [AList.lookup_insert_ne own]
    exact present

/-- What the run over the events keeps, from any summaries on. -/
theorem ingest_events (events : List (Int × DenialEvent)) (emitted : ∀ event ∈ events, event.2.Emitted)
    (clean : Sampleless summaries) :
    Sampleless (events.foldl (fun summaries event => ingest summaries event.1 event.2) summaries) ∧
      ∀ key, (summaries.lookup key).isSome = true ∨ (∃ event ∈ events, event.2.key = key) →
        ((events.foldl (fun summaries event => ingest summaries event.1 event.2) summaries).lookup key).isSome =
          true := by
  induction events generalizing summaries with
  | nil =>
    refine ⟨clean, ?_⟩
    rintro key (present | ⟨event, member, _⟩)
    · exact present
    · cases member
  | cons event events ih =>
    obtain ⟨kept, found⟩ := ih (fun later member => emitted later (List.mem_cons_of_mem event member))
      (sampleless_ingest (emitted event List.mem_cons_self) event.1 clean)
    refine ⟨kept, ?_⟩
    rintro key (present | ⟨later, member, same⟩)
    · exact found key (.inl (lookup_ingest_of_some present))
    · rcases List.mem_cons.mp member with here | behind
      · rw [here] at same
        rw [← same]
        exact found _ (.inl (lookup_ingest summaries event.1 event.2))
      · exact found key (.inr ⟨later, behind, same⟩)

theorem collected_plain {events : List (Int × DenialEvent)} (emitted : ∀ event ∈ events, event.2.Emitted) :
    ∀ summary ∈ collected events, summary.l7RequestSamples = [] ∧ summary.l7InspectionActive = false := by
  have nothing : Sampleless ∅ := fun key denial found => by cases found
  intro summary member
  obtain ⟨entry, stored, rfl⟩ := List.mem_map.mp member
  exact ⟨((ingest_events events emitted nothing).1 entry.1 entry.2 (AList.mem_lookup_iff.mpr stored)).2, rfl⟩

theorem collected_key {events : List (Int × DenialEvent)} (emitted : ∀ event ∈ events, event.2.Emitted)
    {event : Int × DenialEvent} (listed : event ∈ events) :
    ∃ summary ∈ collected events, Mapper.summaryKey summary = (event.2.host, event.2.port.toUInt32, event.2.binary) := by
  have nothing : Sampleless ∅ := fun key denial found => by cases found
  obtain ⟨clean, found⟩ := ingest_events events emitted nothing
  obtain ⟨denial, stored⟩ := Option.isSome_iff_exists.mp (found event.2.key (.inr ⟨event, listed, rfl⟩))
  have own := (clean _ _ stored).1
  refine ⟨denial.summary, List.mem_map.mpr ⟨⟨event.2.key, denial⟩, AList.mem_lookup_iff.mp stored, rfl⟩, ?_⟩
  simp only [DenialEvent.key, Prod.mk.injEq] at own
  obtain ⟨host, port, binary⟩ := own
  show (denial.host, denial.port.toUInt32, denial.binary) = _
  rw [host, port, binary]

end Collected

/-! What is proposed. -/

namespace Mapper

section Proposals

variable {isAlphanumeric : Char → Bool} {lookupHost : String → Except String (List SocketAddr)}
  {summaries : List DenialSummary} {chunk : PolicyChunk}

/-- The proposal is for the host, the port and the binary of the event. -/
def PolicyChunk.Answers (chunk : PolicyChunk) (event : DenialEvent) : Prop :=
  chunk.binary = event.binary ∧ ∃ rule endpoint, chunk.proposedRule = some rule ∧ rule.endpoints = [endpoint] ∧
    endpoint.host = event.host ∧ endpoint.port = event.port.toUInt32

/-- The rule that is proposed where no requests were seen. -/
def plainRule (isAlphanumeric : Char → Bool) (host : String) (port : UInt32) (binary : String)
    (allowedIps : List String) : NetworkPolicyRule where
  name := generateRuleName isAlphanumeric host port
  endpoints := [{ host, port, ports := [port], allowedIps }]
  binaries := [{ path := binary }]

theorem proposedEndpoint_host (host : String) (port : UInt32) (allowedIps : List String) (hasL7 : Bool)
    (rules : List L7Rule) : (proposedEndpoint host port allowedIps hasL7 rules).host = host ∧
      (proposedEndpoint host port allowedIps hasL7 rules).port = port := by
  unfold proposedEndpoint
  split <;> exact ⟨rfl, rfl⟩

theorem proposal_answers {event : DenialEvent} {key : String × UInt32 × String} (denials : List DenialSummary) :
    (proposal isAlphanumeric lookupHost key denials).Answers event ↔
      key = (event.host, event.port.toUInt32, event.binary) := by
  obtain ⟨host, port, binary⟩ := key
  constructor
  · rintro ⟨own, rule, endpoint, proposed, only, sameHost, samePort⟩
    cases proposed
    cases only
    rw [(proposedEndpoint_host ..).1] at sameHost
    rw [(proposedEndpoint_host ..).2] at samePort
    rw [← sameHost, ← samePort, ← own]
    rfl
  · intro same
    cases same
    exact ⟨rfl, _, _, rfl, rfl, (proposedEndpoint_host ..).1, (proposedEndpoint_host ..).2⟩

theorem exists_proposal {event : DenialEvent}
    (summarised : ∃ summary ∈ summaries, summaryKey summary = (event.host, event.port.toUInt32, event.binary)) :
    ∃ chunk ∈ generateProposals isAlphanumeric lookupHost summaries, chunk.Answers event := by
  obtain ⟨summary, listed, own⟩ := summarised
  refine ⟨_, List.mem_map.mpr ⟨summaryKey summary, List.mem_dedup.mpr (List.mem_map_of_mem listed), rfl⟩, ?_⟩
  exact (proposal_answers _).mpr own

theorem proposed_plain {event : DenialEvent} (drafted : chunk ∈ generateProposals isAlphanumeric lookupHost summaries)
    (answers : chunk.Answers event) (named : event.binary ≠ "")
    (plain : ∀ summary ∈ summaries, summary.l7RequestSamples = [] ∧ summary.l7InspectionActive = false) :
    chunk.ruleName = generateRuleName isAlphanumeric event.host event.port.toUInt32 ∧
      chunk.proposedRule = some (plainRule isAlphanumeric event.host event.port.toUInt32 event.binary
        (resolveAllowedIpsIfPrivate lookupHost event.host event.port.toUInt32)) := by
  obtain ⟨key, _, rfl⟩ := List.mem_map.mp drafted
  rw [(proposal_answers _).mp answers]
  have unseen : ∀ denials : List DenialSummary, (∀ denial ∈ denials, denial ∈ summaries) →
      (denials.any fun denial => denial.l7InspectionActive || !denial.l7RequestSamples.isEmpty) = false := by
    intro denials known
    rw [List.any_eq_false]
    intro denial member
    obtain ⟨samples, active⟩ := plain denial (known denial member)
    rw [samples, active]
    simp
  have kept : (event.binary.isEmpty) = false := by simpa using named
  refine ⟨rfl, ?_⟩
  simp only [proposal, plainRule, proposedEndpoint, unseen _ fun denial member => (List.mem_filter.mp member).1, kept,
    Bool.false_and, Bool.false_eq_true, if_false]

end Proposals

section Addresses

variable {addrs : List SocketAddr}

/-- The unspecified address of either version, or that of version 4 under `::ffff:0:0/96`. -/
def isUnspecifiedIp : IpAddr → Bool
  | .v4 addr => addr.isUnspecified
  | .v6 addr => addr.isUnspecified || addr.toIpv4Mapped.any Ipv4Addr.isUnspecified

/-- The mapper does not count the unspecified address, and agrees with the proxy on the others. -/
theorem isInternalIp_or_unspecified (ip : IpAddr) : Sandbox.isInternalIp ip = (isInternalIp ip || isUnspecifiedIp ip) := by
  cases ip with
  | v4 addr => rfl
  | v6 addr =>
    simp only [Sandbox.isInternalIp, isInternalIp, isUnspecifiedIp]
    cases loopback : addr.isLoopback with
    | true => rfl
    | false =>
      cases unspecified : addr.isUnspecified with
      | true => simp
      | false =>
        simp only [Bool.or_false, Bool.false_or, Bool.false_eq_true, if_false]
        split
        · rfl
        · split
          · rfl
          · cases addr.toIpv4Mapped with
            | none => rfl
            | some mapped => rfl

theorem blocked_of_unspecified {ip : IpAddr} (unspecified : isUnspecifiedIp ip = true) : isAlwaysBlockedIp ip = true := by
  cases ip with
  | v4 addr =>
    simp only [isUnspecifiedIp] at unspecified
    simp only [isAlwaysBlockedIp, isAlwaysBlockedIpv4, unspecified, Bool.or_true]
  | v6 addr =>
    simp only [isUnspecifiedIp, Bool.or_eq_true] at unspecified
    rcases unspecified with own | inner
    · simp only [isAlwaysBlockedIp, own, Bool.or_true, if_true]
    · simp only [isAlwaysBlockedIp]
      cases held : addr.toIpv4Mapped with
      | none =>
        rw [held] at inner
        cases inner
      | some mapped =>
        rw [held, Option.any_some] at inner
        simp only [isAlwaysBlockedIpv4, inner, Bool.or_true, ite_self]

theorem isInternalIp_eq {ip : IpAddr} (safe : ¬ UnsafeIp ip) : isInternalIp ip = Sandbox.isInternalIp ip := by
  have specified : isUnspecifiedIp ip = false := by
    rw [← Bool.not_eq_true]
    intro unspecified
    exact safe (isAlwaysBlockedIp_iff.mp (blocked_of_unspecified unspecified))
  rw [isInternalIp_or_unspecified, specified, Bool.or_false]

theorem mem_destutter {α : Type} [DecidableEq α] {list : List α} {item : α} :
    item ∈ list.destutter (· ≠ ·) ↔ item ∈ list := by
  constructor
  · exact fun member => (List.destutter_sublist (· ≠ ·) list).subset member
  · intro member
    cases list with
    | nil => cases member
    | cons first rest =>
      rw [List.destutter_cons']
      induction rest generalizing first with
      | nil => exact member
      | cons next rest ih =>
        by_cases differs : first ≠ next
        · rw [List.destutter'_cons_pos _ differs]
          rcases List.mem_cons.mp member with here | behind
          · exact List.mem_cons.mpr (.inl here)
          · exact List.mem_cons_of_mem first (ih next behind)
        · rw [List.destutter'_cons_neg _ differs]
          rw [not_not] at differs
          apply ih first
          rcases List.mem_cons.mp member with here | behind
          · exact List.mem_cons.mpr (.inl here)
          · rwa [differs]

theorem mem_allowedIpsFor {entry : String} : entry ∈ allowedIpsFor addrs ↔
    addrs.any (isInternalIp ·.ip) = true ∧ ∃ addr ∈ addrs, addr.ip.text = entry := by
  unfold allowedIpsFor
  split
  · rename_i internal
    rw [mem_destutter, List.mem_mergeSort, List.mem_map, and_iff_right internal]
  · rename_i abroad
    simp [abroad]

end Addresses

end Mapper

end OpenShell.Sandbox
