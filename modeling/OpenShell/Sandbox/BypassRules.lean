import OpenShell.Lib.IpAddr
import OpenShell.Lib.PacketFilter
import OpenShell.Sandbox.Netns

namespace OpenShell.Sandbox.BypassRules

open Net PacketFilter
open Netns (NetworkNamespace)

/-! The rules against traffic that goes around the proxy. -/

inductive CtState where
  | new
  | established
  | related
  | invalid
deriving DecidableEq

def CtState.text : CtState → String
  | .new => "NEW"
  | .established => "ESTABLISHED"
  | .related => "RELATED"
  | .invalid => "INVALID"

/-- A packet that leaves the namespace, and whether a rule with a rate has room for it. -/
structure Packet where
  destination : IpAddr
  protocol : String
  dport : UInt16
  outInterface : String
  ctState : CtState
  syn : Bool
  withinLimit : Bool

inductive Condition where
  | destination (host : String)
  | protocol (name : String)
  | dport (port : UInt16)
  | outInterface (name : String)
  | ctState (states : List CtState)
  | syn
  | limit (rate burst : String)
deriving DecidableEq

inductive Jump where
  | accept
  | log (logPrefix : String)
  | reject (kind : String)
deriving DecidableEq

structure Args where
  conditions : List Condition
  jump : Jump
deriving DecidableEq

def Condition.args : Condition → List String
  | .destination host => ["-d", host ++ "/32"]
  | .protocol name => ["-p", name]
  | .dport port => ["--dport", toString port]
  | .outInterface name => ["-o", name]
  | .ctState states => ["-m", "conntrack", "--ctstate", String.intercalate "," (states.map CtState.text)]
  | .syn => ["--syn"]
  | .limit rate burst => ["-m", "limit", "--limit", rate, "--limit-burst", burst]

def Jump.args : Jump → List String
  | .accept => ["-j", "ACCEPT"]
  | .log logPrefix => ["-j", "LOG", "--log-prefix", logPrefix, "--log-uid"]
  | .reject kind => ["-j", "REJECT", "--reject-with", kind]

/-- The arguments of `iptables`. -/
def Args.text (args : Args) : List String :=
  ["-A", "OUTPUT"] ++ args.conditions.flatMap Condition.args ++ args.jump.args

/-- What `iptables` makes of the arguments. -/
def Condition.holds (packet : Packet) : Condition → Bool
  | .destination host => packet.destination.text = host
  | .protocol name => packet.protocol = name
  | .dport port => packet.dport = port
  | .outInterface name => packet.outInterface = name
  | .ctState states => packet.ctState ∈ states
  | .syn => packet.syn
  | .limit _ _ => packet.withinLimit

def Args.rule (args : Args) : Rule Packet where
  holds packet := args.conditions.all (Condition.holds packet)
  target :=
    match args.jump with
    | .accept => .accept
    | .log _ => .log
    | .reject _ => .reject

/-- The output of a namespace: its rules lie over a policy that accepts. -/
def outputVerdict (chain : List Args) (packet : Packet) : Verdict := verdict .accept packet (chain.map Args.rule)

/-- `run_iptables_netns`: a command that is refused adds nothing. -/
def runIptablesNetns (refusal : String → List String → Option String) (netns iptablesCmd : String) (args : Args)
    (chain : List Args) : Except String (List Args) :=
  match refusal iptablesCmd args.text with
  | some stderr => .error ("ip netns exec " ++ netns ++ " " ++ iptablesCmd ++ " failed: " ++ stderr)
  | none => .ok (chain ++ [args])

/-- Commands one after another, each with whether its failure ends them. -/
def runAll (run : Args → List Args → Except String (List Args)) :
    List (Args × Bool) → List Args → Except String Unit × List Args
  | [], chain => (.ok (), chain)
  | (args, fatal) :: rest, chain =>
    match run args chain with
    | .ok next => runAll run rest next
    | .error problem => if fatal then (.error problem, chain) else runAll run rest chain

def acceptProxy (hostIp : String) (proxyPort : UInt16) : Args :=
  ⟨[.destination hostIp, .protocol "tcp", .dport proxyPort], .accept⟩

def acceptLoopback : Args := ⟨[.outInterface "lo"], .accept⟩

def acceptEstablished : Args := ⟨[.ctState [.established, .related]], .accept⟩

def logTcp (logPrefix : String) : Args := ⟨[.protocol "tcp", .syn, .limit "5/sec" "10"], .log logPrefix⟩

def logUdp (logPrefix : String) : Args := ⟨[.protocol "udp", .limit "5/sec" "10"], .log logPrefix⟩

def rejectTcp (kind : String) : Args := ⟨[.protocol "tcp"], .reject kind⟩

def rejectUdp (kind : String) : Args := ⟨[.protocol "udp"], .reject kind⟩

/-- A failure to log is not fatal. -/
def bypassRules (accepted : List Args) (kind logPrefix : String) : List (Args × Bool) :=
  accepted.map (fun args => (args, true)) ++
    [(logTcp logPrefix, false), (rejectTcp kind, true), (logUdp logPrefix, false), (rejectUdp kind, true)]

def acceptedV4 (proxyPort : UInt16) : List Args :=
  [acceptProxy Netns.hostIp proxyPort, acceptLoopback, acceptEstablished]

/-- The proxy has an IPv4 address. -/
def acceptedV6 : List Args := [acceptLoopback, acceptEstablished]

def installBypassRulesFor (run : Args → List Args → Except String (List Args)) (proxyPort : UInt16)
    (logPrefix : String) (chain : List Args) : Except String Unit × List Args :=
  runAll run (bypassRules (acceptedV4 proxyPort) "icmp-port-unreachable" logPrefix) chain

def installBypassRulesForV6 (run : Args → List Args → Except String (List Args)) (logPrefix : String)
    (chain : List Args) : Except String Unit × List Args :=
  runAll run (bypassRules acceptedV6 "icmp6-port-unreachable" logPrefix) chain

/-- What `find_iptables` and `find_ip6tables` find. -/
structure Tools where
  iptables : Option String
  ip6tables : Option String

structure Filters where
  v4 : List Args := []
  v6 : List Args := []

/-- The rules of IPv6 are installed as far as they can be. -/
def installBypassRules (refusal : String → List String → Option String) (tools : Tools) (ns : NetworkNamespace)
    (proxyPort : UInt16) (filters : Filters) : Except String Unit × Filters :=
  match tools.iptables with
  | none => (.ok (), filters)
  | some iptablesPath =>
    let logPrefix := "openshell:bypass:" ++ ns.name ++ ":"
    match installBypassRulesFor (runIptablesNetns refusal ns.name iptablesPath) proxyPort logPrefix filters.v4 with
    | (.error problem, v4) => (.error problem, { filters with v4 })
    | (.ok _, v4) =>
      match tools.ip6tables with
      | none => (.ok (), { filters with v4 })
      | some ip6Path =>
        let (_, v6) := installBypassRulesForV6 (runIptablesNetns refusal ns.name ip6Path) logPrefix filters.v6
        (.ok (), { v4, v6 })

/-! Which packets the rules reject. -/

section Rules

variable {run : Args → List Args → Except String (List Args)} {refused : Args → Option String}

/-- What a command adds does not depend on the rules before it. -/
def Appends (run : Args → List Args → Except String (List Args)) (refused : Args → Option String) : Prop :=
  ∀ args chain, run args chain = match refused args with
    | some problem => .error problem
    | none => .ok (chain ++ [args])

theorem runAll_fatal (appends : Appends run refused) (accepted : List Args) (rest : List (Args × Bool))
    (chain : List Args) : runAll run (accepted.map (fun args => (args, true)) ++ rest) chain =
      if ∀ args ∈ accepted, refused args = none then runAll run rest (chain ++ accepted)
      else runAll run (accepted.map fun args => (args, true)) chain := by
  induction accepted generalizing chain with
  | nil => simp
  | cons args accepted ih =>
    rw [List.map_cons, List.cons_append, runAll, runAll, appends]
    cases here : refused args with
    | some problem => simp [here]
    | none => simp [here, ih, List.append_assoc]

theorem runAll_only_accepts (appends : Appends run refused) (accepted : List Args) (chain : List Args) :
    ∃ kept, kept.Sublist accepted ∧ (runAll run (accepted.map fun args => (args, true)) chain).2 = chain ++ kept := by
  induction accepted generalizing chain with
  | nil => exact ⟨[], List.Sublist.refl _, by simp [runAll]⟩
  | cons args accepted ih =>
    rw [List.map_cons, runAll, appends]
    cases refused args with
    | some problem => exact ⟨[], List.nil_sublist _, by simp⟩
    | none =>
      obtain ⟨kept, sub, same⟩ := ih (chain ++ [args])
      exact ⟨args :: kept, sub.cons_cons _, by simp [same]⟩

variable {accepted : List Args} {kind logPrefix : String} {packet : Packet}

/-- The rules behind the accepting ones. -/
def rejecting (refused : Args → Option String) (kind logPrefix : String) : List Args :=
  let logged := if refused (logTcp logPrefix) = none then [logTcp logPrefix] else []
  if refused (rejectTcp kind) = none then
    logged ++ [rejectTcp kind] ++ (if refused (logUdp logPrefix) = none then [logUdp logPrefix] else []) ++
      (if refused (rejectUdp kind) = none then [rejectUdp kind] else [])
  else logged

theorem runAll_rejecting (appends : Appends run refused) (chain : List Args) :
    (runAll run [(logTcp logPrefix, false), (rejectTcp kind, true), (logUdp logPrefix, false), (rejectUdp kind, true)]
      chain).2 = chain ++ rejecting refused kind logPrefix := by
  unfold rejecting
  cases first : refused (logTcp logPrefix) <;> cases second : refused (rejectTcp kind) <;>
    cases third : refused (logUdp logPrefix) <;> cases fourth : refused (rejectUdp kind) <;>
    simp [runAll, appends _ _, first, second, third, fourth]

/-- A packet that an accepting rule lets pass. -/
def Accepted (accepted : List Args) (packet : Packet) : Prop := ∃ args ∈ accepted, args.rule.holds packet = true

instance : Decidable (Accepted accepted packet) :=
  inferInstanceAs (Decidable (∃ args ∈ accepted, args.rule.holds packet = true))

/-- The commands that have to succeed for a packet to be rejected. -/
def needed (accepted : List Args) (kind : String) (packet : Packet) : List Args :=
  if packet.protocol = "tcp" then accepted ++ [rejectTcp kind] else accepted ++ [rejectTcp kind, rejectUdp kind]

theorem mem_rejecting {args : Args} (listed : args ∈ rejecting refused kind logPrefix) :
    args = logTcp logPrefix ∨ args = rejectTcp kind ∨ args = logUdp logPrefix ∨ args = rejectUdp kind := by
  unfold rejecting at listed
  grind

theorem rejecting_iff : outputVerdict (rejecting refused kind logPrefix) packet = .reject ↔
    refused (rejectTcp kind) = none ∧ (packet.protocol = "tcp" ∨
      (packet.protocol = "udp" ∧ refused (rejectUdp kind) = none)) := by
  have noAccept : ∀ rule ∈ (rejecting refused kind logPrefix).map Args.rule, rule.target ≠ .accept := by
    intro rule member
    obtain ⟨args, listed, rfl⟩ := List.mem_map.1 member
    rcases mem_rejecting listed with rfl | rfl | rfl | rfl <;> nofun
  rw [outputVerdict, verdict_of_no_accept noAccept]
  unfold rejecting
  cases first : refused (logTcp logPrefix) <;> cases second : refused (rejectTcp kind) <;>
    cases third : refused (logUdp logPrefix) <;> cases fourth : refused (rejectUdp kind) <;>
    simp [Args.rule, logTcp, logUdp, rejectTcp, rejectUdp, Condition.holds]

theorem outputVerdict_accepts {chain : List Args} (accepts : ∀ args ∈ chain, args.jump = .accept)
    (later : Verdict) : verdict later packet (chain.map Args.rule) =
      if ∃ args ∈ chain, args.rule.holds packet = true then .accept else later := by
  have targets : ∀ rule ∈ chain.map Args.rule, rule.target = .accept := by
    intro rule member
    obtain ⟨args, listed, rfl⟩ := List.mem_map.1 member
    simp only [Args.rule, accepts args listed]
  rw [verdict_of_accepts targets]
  simp only [List.mem_map, exists_exists_and_eq_and]

/-- Whichever commands fail, a packet is rejected only behind all that could have accepted it. -/
theorem bypassRules_rejects (appends : Appends run refused) (accepts : ∀ args ∈ accepted, args.jump = .accept) :
    outputVerdict (runAll run (bypassRules accepted kind logPrefix) []).2 packet = .reject ↔
      ¬Accepted accepted packet ∧ (packet.protocol = "tcp" ∨ packet.protocol = "udp") ∧
        ∀ args ∈ needed accepted kind packet, refused args = none := by
  rw [bypassRules, runAll_fatal appends]
  by_cases complete : ∀ args ∈ accepted, refused args = none
  · rw [if_pos complete, runAll_rejecting appends, List.nil_append]
    have front : outputVerdict (accepted ++ rejecting refused kind logPrefix) packet =
        if Accepted accepted packet then .accept else outputVerdict (rejecting refused kind logPrefix) packet := by
      rw [outputVerdict, List.map_append, verdict_append, outputVerdict_accepts accepts]
      rfl
    rw [front]
    by_cases passes : Accepted accepted packet
    · simp [passes]
    · rw [if_neg passes, rejecting_iff]
      unfold needed
      by_cases tcp : packet.protocol = "tcp"
      · simp only [tcp, passes, if_true, List.mem_append, List.mem_singleton]
        constructor
        · rintro ⟨ran, _⟩
          refine ⟨not_false, .inl trivial, ?_⟩
          rintro args (listed | rfl)
          · exact complete args listed
          · exact ran
        · rintro ⟨_, _, ran⟩
          exact ⟨ran _ (.inr rfl), .inl trivial⟩
      · simp only [tcp, passes, if_false, false_or, List.mem_append, List.mem_cons, List.not_mem_nil, or_false]
        constructor
        · rintro ⟨ran, udp, last⟩
          refine ⟨not_false, udp, ?_⟩
          rintro args (listed | rfl | rfl)
          · exact complete args listed
          · exact ran
          · exact last
        · rintro ⟨_, udp, ran⟩
          exact ⟨ran _ (.inr (.inl rfl)), udp, ran _ (.inr (.inr rfl))⟩
  · rw [if_neg complete]
    obtain ⟨kept, sub, same⟩ := @runAll_only_accepts run refused appends accepted []
    rw [same, List.nil_append, outputVerdict, outputVerdict_accepts fun args listed => accepts args (sub.subset listed)]
    have front : ¬∀ args ∈ needed accepted kind packet, refused args = none := by
      intro ran
      refine complete fun args listed => ran args ?_
      unfold needed
      split <;> exact List.mem_append_left _ listed
    simp [front]

/-- The commands succeed where none is refused that has to be there. -/
theorem bypassRules_ok (appends : Appends run refused) (chain : List Args) :
    (runAll run (bypassRules accepted kind logPrefix) chain).1.isOk = true ↔
      ∀ args ∈ accepted ++ [rejectTcp kind, rejectUdp kind], refused args = none := by
  induction accepted generalizing chain with
  | nil =>
    cases first : refused (logTcp logPrefix) <;> cases second : refused (rejectTcp kind) <;>
      cases third : refused (logUdp logPrefix) <;> cases fourth : refused (rejectUdp kind) <;>
      simp [bypassRules, runAll, appends _ _, first, second, third, fourth, Except.isOk, Except.toBool]
  | cons args accepted ih =>
    have later : runAll run (bypassRules (args :: accepted) kind logPrefix) chain =
        match run args chain with
        | .ok next => runAll run (bypassRules accepted kind logPrefix) next
        | .error problem => (.error problem, chain) := rfl
    rw [later, appends]
    cases here : refused args with
    | some problem => simp [here, Except.isOk, Except.toBool]
    | none => simp [here, ih]

end Rules

/-! The rules of a namespace. -/

section Namespace

variable (refusal : String → List String → Option String) (tools : Tools) (ns : NetworkNamespace) (proxyPort : UInt16)
  (packet : Packet)

/-- What stays in the namespace, and what answers. -/
def StaysOrAnswers : Prop :=
  packet.outInterface = "lo" ∨ packet.ctState = .established ∨ packet.ctState = .related

def ToProxy : Prop :=
  packet.destination.text = Netns.hostIp ∧ packet.protocol = "tcp" ∧ packet.dport = proxyPort

/-- The error of a refused command. -/
def refusedBy (netns iptablesCmd : String) (args : Args) : Option String :=
  (refusal iptablesCmd args.text).map fun stderr =>
    "ip netns exec " ++ netns ++ " " ++ iptablesCmd ++ " failed: " ++ stderr

theorem appends_runIptablesNetns (netns iptablesCmd : String) :
    Appends (runIptablesNetns refusal netns iptablesCmd) (refusedBy refusal netns iptablesCmd) := by
  intro args chain
  unfold runIptablesNetns refusedBy
  cases refused : refusal iptablesCmd args.text <;> simp only [Option.map]

theorem refusedBy_none (netns iptablesCmd : String) (args : Args) :
    refusedBy refusal netns iptablesCmd args = none ↔ refusal iptablesCmd args.text = none := Option.map_eq_none_iff

theorem accepted_iff_v4 :
    Accepted (acceptedV4 proxyPort) packet ↔ ToProxy proxyPort packet ∨ StaysOrAnswers packet := by
  simp [Accepted, acceptedV4, acceptProxy, acceptLoopback, acceptEstablished, Args.rule, Condition.holds, ToProxy,
    StaysOrAnswers]

theorem accepted_iff_v6 : Accepted acceptedV6 packet ↔ StaysOrAnswers packet := by
  simp [Accepted, acceptedV6, acceptLoopback, acceptEstablished, Args.rule, Condition.holds, StaysOrAnswers]

/-- The commands without which the rules of IPv4 have failed. -/
def requiredV4 : List Args :=
  acceptedV4 proxyPort ++ [rejectTcp "icmp-port-unreachable", rejectUdp "icmp-port-unreachable"]

theorem accepting_v4 : ∀ args ∈ acceptedV4 proxyPort, args.jump = .accept := by
  simp [acceptedV4, acceptProxy, acceptLoopback, acceptEstablished]

theorem accepting_v6 : ∀ args ∈ acceptedV6, args.jump = .accept := by
  simp [acceptedV6, acceptLoopback, acceptEstablished]

theorem installBypassRulesFor_rejects (path logPrefix : String) :
    outputVerdict (installBypassRulesFor (runIptablesNetns refusal ns.name path) proxyPort logPrefix []).2 packet =
      .reject ↔ ¬(ToProxy proxyPort packet ∨ StaysOrAnswers packet) ∧
        (packet.protocol = "tcp" ∨ packet.protocol = "udp") ∧
        ∀ args ∈ needed (acceptedV4 proxyPort) "icmp-port-unreachable" packet, refusal path args.text = none := by
  rw [installBypassRulesFor, bypassRules_rejects (appends_runIptablesNetns refusal ns.name path)
    (accepting_v4 proxyPort), accepted_iff_v4]
  simp only [refusedBy_none]

theorem installBypassRulesFor_ok (path logPrefix : String) :
    (installBypassRulesFor (runIptablesNetns refusal ns.name path) proxyPort logPrefix []).1.isOk = true ↔
      ∀ args ∈ requiredV4 proxyPort, refusal path args.text = none := by
  rw [installBypassRulesFor, bypassRules_ok (appends_runIptablesNetns refusal ns.name path)]
  simp only [refusedBy_none, requiredV4]

theorem installBypassRulesForV6_rejects (path logPrefix : String) :
    outputVerdict (installBypassRulesForV6 (runIptablesNetns refusal ns.name path) logPrefix []).2 packet =
      .reject ↔ ¬StaysOrAnswers packet ∧ (packet.protocol = "tcp" ∨ packet.protocol = "udp") ∧
        ∀ args ∈ needed acceptedV6 "icmp6-port-unreachable" packet, refusal path args.text = none := by
  rw [installBypassRulesForV6, bypassRules_rejects (appends_runIptablesNetns refusal ns.name path) accepting_v6,
    accepted_iff_v6]
  simp only [refusedBy_none]

/-- Whichever commands fail, what is rejected is the traffic that goes around the proxy, as far as the commands for it
have succeeded; those that log are not among them. -/
theorem rejected_iff :
    (outputVerdict (installBypassRules refusal tools ns proxyPort {}).2.v4 packet = .reject ↔
      ¬(ToProxy proxyPort packet ∨ StaysOrAnswers packet) ∧ (packet.protocol = "tcp" ∨ packet.protocol = "udp") ∧
        ∃ path, tools.iptables = some path ∧
          ∀ args ∈ needed (acceptedV4 proxyPort) "icmp-port-unreachable" packet, refusal path args.text = none) ∧
    (outputVerdict (installBypassRules refusal tools ns proxyPort {}).2.v6 packet = .reject ↔
      ¬StaysOrAnswers packet ∧ (packet.protocol = "tcp" ∨ packet.protocol = "udp") ∧
        (∃ path, tools.iptables = some path ∧ ∀ args ∈ requiredV4 proxyPort, refusal path args.text = none) ∧
        ∃ path, tools.ip6tables = some path ∧
          ∀ args ∈ needed acceptedV6 "icmp6-port-unreachable" packet, refusal path args.text = none) ∧
    ((installBypassRules refusal tools ns proxyPort {}).1.isOk = true ↔
      ∀ path, tools.iptables = some path → ∀ args ∈ requiredV4 proxyPort, refusal path args.text = none) := by
  have nothing : outputVerdict [] packet ≠ .reject := nofun
  unfold installBypassRules
  cases found : tools.iptables with
  | none => simp [nothing, Except.isOk, Except.toBool]
  | some path =>
    have rejects := installBypassRulesFor_rejects refusal ns proxyPort packet path
      ("openshell:bypass:" ++ ns.name ++ ":")
    have done := installBypassRulesFor_ok refusal ns proxyPort path ("openshell:bypass:" ++ ns.name ++ ":")
    simp only [Option.some.injEq, exists_eq_left', forall_eq']
    cases ran : installBypassRulesFor (runIptablesNetns refusal ns.name path) proxyPort
        ("openshell:bypass:" ++ ns.name ++ ":") [] with
    | mk result v4 =>
      rw [ran] at rejects done
      cases result with
      | error problem =>
        have failed : ¬∀ args ∈ requiredV4 proxyPort, refusal path args.text = none := fun all => nomatch done.2 all
        refine ⟨rejects, iff_of_false nothing ?_, done⟩
        rintro ⟨_, _, complete, _⟩
        exact failed complete
      | ok _ =>
        have complete : ∀ args ∈ requiredV4 proxyPort, refusal path args.text = none := done.1 rfl
        cases found6 : tools.ip6tables with
        | none =>
          refine ⟨rejects, iff_of_false nothing ?_, iff_of_true rfl complete⟩
          rintro ⟨_, _, _, _, missing, _⟩
          cases missing
        | some path6 =>
          have rejects6 := installBypassRulesForV6_rejects refusal ns packet path6
            ("openshell:bypass:" ++ ns.name ++ ":")
          simp only [Option.some.injEq, exists_eq_left']
          refine ⟨rejects, rejects6.trans ?_, iff_of_true rfl complete⟩
          constructor
          · rintro ⟨leaves, transport, every⟩
            exact ⟨leaves, transport, complete, every⟩
          · rintro ⟨leaves, transport, _, every⟩
            exact ⟨leaves, transport, every⟩

end Namespace

end OpenShell.Sandbox.BypassRules
