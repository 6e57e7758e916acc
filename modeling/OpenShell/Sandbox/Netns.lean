import Mathlib.Data.List.Nodup
import OpenShell.Lib.Machine
import OpenShell.Lib.Undo

namespace OpenShell.Sandbox.Netns

/-! The network namespaces of the sandboxes, and the pairs of interfaces that lead into them. -/

structure Veth where
  host : String
  peer : String
  netns : Option String
deriving DecidableEq

/-- What the host has: its namespaces, the pairs, of which the peer may have been moved, and its other interfaces. -/
structure Host where
  namespaces : List String
  veths : List Veth
  links : List String
deriving DecidableEq

namespace Host

variable (host : Host)

/-- The interfaces that a name of the host may not repeat. -/
def linkNames : List String :=
  host.links ++ host.veths.map Veth.host ++ (host.veths.filter fun veth => veth.netns = none).map Veth.peer

def inside (ns : String) : List String :=
  "lo" :: (host.veths.filter fun veth => veth.netns = some ns).map Veth.peer

end Host

inductive Command where
  | netnsAdd (ns : String)
  | netnsDelete (ns : String)
  | linkAdd (link peer : String)
  | linkSetNetns (link ns : String)
  | linkDelete (link : String)
  | addrAdd (cidr dev : String)
  | linkUp (dev : String)
  | addrAddIn (ns cidr dev : String)
  | linkUpIn (ns dev : String)
  | routeAddIn (ns via : String)
deriving DecidableEq

/-- The arguments of `ip`, without those that enter a namespace. -/
def Command.args : Command → List String
  | .netnsAdd ns => ["netns", "add", ns]
  | .netnsDelete ns => ["netns", "delete", ns]
  | .linkAdd link peer => ["link", "add", link, "type", "veth", "peer", "name", peer]
  | .linkSetNetns link ns => ["link", "set", link, "netns", ns]
  | .linkDelete link => ["link", "delete", link]
  | .addrAdd cidr dev | .addrAddIn _ cidr dev => ["addr", "add", cidr, "dev", dev]
  | .linkUp dev | .linkUpIn _ dev => ["link", "set", dev, "up"]
  | .routeAddIn _ via => ["route", "add", "default", "via", via]

def Command.netns : Command → Option String
  | .addrAddIn ns _ _ | .linkUpIn ns _ | .routeAddIn ns _ => some ns
  | _ => none

/-- What `ip` does. A name that is taken is refused, one end of a pair takes the other along, and a namespace takes the
interfaces that were moved into it. -/
def perform (command : Command) (host : Host) : Except String Host :=
  match command with
  | .netnsAdd ns =>
    if ns ∈ host.namespaces then .error "File exists" else .ok { host with namespaces := ns :: host.namespaces }
  | .netnsDelete ns =>
    if ns ∈ host.namespaces then
      .ok { host with
        namespaces := host.namespaces.erase ns
        veths := host.veths.filter fun veth => veth.netns ≠ some ns }
    else .error "No such file or directory"
  | .linkAdd link peer =>
    if link ∈ host.linkNames ∨ peer ∈ host.linkNames ∨ link = peer then .error "File exists"
    else .ok { host with veths := ⟨link, peer, none⟩ :: host.veths }
  | .linkSetNetns link ns =>
    if ns ∈ host.namespaces ∧ ∃ veth ∈ host.veths, veth.peer = link ∧ veth.netns = none then
      .ok { host with veths := host.veths.map fun veth =>
        if veth.peer = link ∧ veth.netns = none then { veth with netns := some ns } else veth }
    else .error "Cannot find device"
  | .linkDelete link =>
    if ∃ veth ∈ host.veths, veth.host = link then
      .ok { host with veths := host.veths.filter fun veth => veth.host ≠ link }
    else .error "Cannot find device"
  | .addrAdd _ dev | .linkUp dev => if dev ∈ host.linkNames then .ok host else .error "Cannot find device"
  | .addrAddIn ns _ dev | .linkUpIn ns dev =>
    if ns ∈ host.namespaces ∧ dev ∈ host.inside ns then .ok host else .error "Cannot find device"
  | .routeAddIn ns _ => if ns ∈ host.namespaces then .ok host else .error "Network is unreachable"

/-- `run_ip` and `run_ip_netns`. A command may fail for reasons of its own, which `refusal` gives. -/
def runIp (refusal : Command → Option String) (command : Command) (host : Host) : Except String Host :=
  match refusal command with
  | some stderr => .error (failure command stderr)
  | none => (perform command host).mapError (failure command)
where
  failure (command : Command) (stderr : String) : String :=
    let shown := String.intercalate " " command.args
    match command.netns with
    | some ns => "ip netns exec " ++ ns ++ " ip " ++ shown ++ " failed: " ++ stderr
    | none => "ip " ++ shown ++ " failed: " ++ stderr

def hostIp : String := "10.200.0.1"

def sandboxIp : String := "10.200.0.2"

/-- The handle of a namespace. `ns_fd` is left to the caller that opens the file. -/
structure NetworkNamespace where
  name : String
  vethHost : String
  vethSandbox : String
deriving DecidableEq

def NetworkNamespace.ofId (shortId : String) : NetworkNamespace :=
  ⟨"sandbox-" ++ shortId, "veth-h-" ++ shortId, "veth-s-" ++ shortId⟩

namespace NetworkNamespace

variable (ns : NetworkNamespace)

def undo : List Command := [.linkDelete ns.vethHost, .netnsDelete ns.name]

/-- The commands in their order, each with the cleanup of its failure. -/
def setup : List (Command × List Command) :=
  [(.netnsAdd ns.name, []),
   (.linkAdd ns.vethHost ns.vethSandbox, [.netnsDelete ns.name]),
   (.linkSetNetns ns.vethSandbox ns.name, ns.undo),
   (.addrAdd (hostIp ++ "/24") ns.vethHost, ns.undo),
   (.linkUp ns.vethHost, ns.undo),
   (.addrAddIn ns.name (sandboxIp ++ "/24") ns.vethSandbox, ns.undo),
   (.linkUpIn ns.name ns.vethSandbox, ns.undo),
   (.linkUpIn ns.name "lo", ns.undo),
   (.routeAddIn ns.name hostIp, ns.undo)]

def create (refusal : Command → Option String) (host : Host) : Except String NetworkNamespace × Host :=
  let (result, host) := Undo.attempt (runIp refusal) ns.setup host
  (result.map fun _ => ns, host)

/-- `Drop`: the failures are logged. -/
def drop (refusal : Command → Option String) (host : Host) : Host := Undo.cleanup (runIp refusal) ns.undo host

end NetworkNamespace

/-! One namespace. -/

/-- No pair is in a namespace that is not there. -/
def Host.WellFormed (host : Host) : Prop := ∀ veth ∈ host.veths, ∀ ns, veth.netns = some ns → ns ∈ host.namespaces

/-- Commands that only clean up do what they say. -/
def Cleans (refusal : Command → Option String) (ns : NetworkNamespace) : Prop :=
  ∀ command ∈ ns.undo, refusal command = none

def Host.with (host : Host) (ns : NetworkNamespace) : Host where
  namespaces := ns.name :: host.namespaces
  veths := ⟨ns.vethHost, ns.vethSandbox, some ns.name⟩ :: host.veths
  links := host.links

section One

variable {refusal : Command → Option String} {ns : NetworkNamespace} {host : Host}

theorem runIp_of_clean {command : Command} (clean : refusal command = none) :
    runIp refusal command host = (perform command host).mapError (runIp.failure command) := by
  rw [runIp, clean]

theorem runIp_ok {command : Command} {next : Host} (ran : runIp refusal command host = .ok next) :
    perform command host = .ok next := by
  unfold runIp at ran
  split at ran
  · cases ran
  · cases performed : perform command host with
    | error problem =>
      rw [performed] at ran
      cases ran
    | ok after =>
      rw [performed] at ran
      exact congrArg Except.ok (Except.ok.inj ran)

theorem cleanup_cons {command : Command} {rest : List Command} {next : Host} (clean : refusal command = none)
    (performed : perform command host = .ok next) :
    Undo.cleanup (runIp refusal) (command :: rest) host = Undo.cleanup (runIp refusal) rest next := by
  rw [Undo.cleanup, runIp_of_clean clean, performed]
  rfl

/-- The names are those of no other namespace and no other interface. -/
structure Fresh (ns : NetworkNamespace) (host : Host) : Prop where
  name : ns.name ∉ host.namespaces
  link : ∀ veth ∈ host.veths, veth.host ≠ ns.vethHost

theorem perform_netnsDelete (formed : host.WellFormed) (new : ns.name ∉ host.namespaces) :
    perform (.netnsDelete ns.name) { host with namespaces := ns.name :: host.namespaces } = .ok host := by
  have others : (host.veths.filter fun veth => veth.netns ≠ some ns.name) = host.veths := by
    refine List.filter_eq_self.2 ?_
    intro veth member
    refine decide_eq_true ?_
    intro moved
    exact new (formed veth member ns.name moved)
  simp only [perform, List.mem_cons_self, if_true, List.erase_cons_head, others]

theorem perform_linkDelete (fresh : ∀ veth ∈ host.veths, veth.host ≠ ns.vethHost) (netns : Option String) :
    perform (.linkDelete ns.vethHost) { host with veths := ⟨ns.vethHost, ns.vethSandbox, netns⟩ :: host.veths } =
      .ok host := by
  have others : (host.veths.filter fun veth => veth.host ≠ ns.vethHost) = host.veths := by
    refine List.filter_eq_self.2 ?_
    intro veth member
    exact decide_eq_true (fresh veth member)
  have found : ∃ veth ∈ (⟨ns.vethHost, ns.vethSandbox, netns⟩ : Veth) :: host.veths, veth.host = ns.vethHost :=
    ⟨_, List.mem_cons_self, rfl⟩
  simp only [perform, found, if_true]
  rw [List.filter_cons_of_neg (by simp), others]

theorem undo_pair (clean : Cleans refusal ns) (formed : host.WellFormed) (fresh : Fresh ns host)
    (netns : Option String) :
    Undo.cleanup (runIp refusal) ns.undo
      { host with
        namespaces := ns.name :: host.namespaces
        veths := ⟨ns.vethHost, ns.vethSandbox, netns⟩ :: host.veths } = host := by
  have named : refusal (.linkDelete ns.vethHost) = none := clean _ (by simp [NetworkNamespace.undo])
  have listed : refusal (.netnsDelete ns.name) = none := clean _ (by simp [NetworkNamespace.undo])
  have unlinked : perform (.linkDelete ns.vethHost)
      { host with
        namespaces := ns.name :: host.namespaces
        veths := ⟨ns.vethHost, ns.vethSandbox, netns⟩ :: host.veths } =
      .ok { host with namespaces := ns.name :: host.namespaces } :=
    @perform_linkDelete ns { host with namespaces := ns.name :: host.namespaces } fresh.link netns
  rw [NetworkNamespace.undo, cleanup_cons named unlinked,
    cleanup_cons listed (perform_netnsDelete formed fresh.name)]
  rfl

theorem linkNames_veth {veth : Veth} (member : veth ∈ host.veths) : veth.host ∈ host.linkNames :=
  List.mem_append_left _ (List.mem_append_right _ (List.mem_map_of_mem member))

theorem linkNames_peer {veth : Veth} (member : veth ∈ host.veths) (unmoved : veth.netns = none) :
    veth.peer ∈ host.linkNames :=
  List.mem_append_right _ (List.mem_map_of_mem (List.mem_filter.2 ⟨member, decide_eq_true unmoved⟩))

/-- A command that only configures leaves the namespaces and the interfaces. -/
theorem brackets_config {start finish : Host} {command : Command} {undo : List Command}
    {rest : List (Command × List Command)} (config : ∀ next, perform command host = .ok next → next = host)
    (undone : Undo.cleanup (runIp refusal) undo host = start)
    (later : Undo.Brackets (runIp refusal) start finish rest host) :
    Undo.Brackets (runIp refusal) start finish ((command, undo) :: rest) host := by
  refine ⟨fun _ => undone, ?_⟩
  intro next ran
  rw [config next (runIp_ok ran)]
  exact later

theorem perform_if {condition : Prop} [Decidable condition] {problem : String} {next : Host}
    (ran : (if condition then Except.ok host else Except.error problem : Except String Host) = .ok next) :
    next = host := by
  split at ran
  · cases ran
    rfl
  · cases ran

/-- The peer of the new pair is the only one that moves. -/
theorem perform_linkSetNetns {next : Host} (new : ns.vethSandbox ∉ host.linkNames)
    (ran : perform (.linkSetNetns ns.vethSandbox ns.name)
      { host with veths := ⟨ns.vethHost, ns.vethSandbox, none⟩ :: host.veths } = .ok next) :
    next = { host with veths := ⟨ns.vethHost, ns.vethSandbox, some ns.name⟩ :: host.veths } := by
  have others : (host.veths.map fun veth =>
      if veth.peer = ns.vethSandbox ∧ veth.netns = none then { veth with netns := some ns.name } else veth) =
      host.veths := by
    refine (List.map_congr_left ?_).trans (List.map_id _)
    intro veth member
    refine if_neg ?_
    intro same
    exact new (same.1 ▸ linkNames_peer member same.2)
  simp only [perform] at ran
  split at ran
  · cases ran
    rw [List.map_cons, others]
    simp
  · cases ran

theorem setup_brackets (clean : Cleans refusal ns) (formed : host.WellFormed) :
    Undo.Brackets (runIp refusal) host (host.with ns) ns.setup host := by
  refine ⟨fun _ => rfl, ?_⟩
  intro named ran
  have added := runIp_ok ran
  simp only [perform] at added
  split at added
  · cases added
  · rename_i name
    cases added
    refine ⟨?_, ?_⟩
    · intro _
      have listed : refusal (.netnsDelete ns.name) = none := clean _ (by simp [NetworkNamespace.undo])
      rw [cleanup_cons listed (perform_netnsDelete formed name)]
      rfl
    · intro paired ran
      have linked := runIp_ok ran
      simp only [perform] at linked
      split at linked
      · cases linked
      · rename_i taken
        cases linked
        simp only [not_or] at taken
        have fresh : Fresh ns host := ⟨name, fun veth member same => taken.1 (same ▸ linkNames_veth member)⟩
        refine ⟨fun _ => undo_pair clean formed fresh none, ?_⟩
        intro moved ran
        have put : moved = host.with ns :=
          @perform_linkSetNetns ns { host with namespaces := ns.name :: host.namespaces } moved taken.2.1 (runIp_ok ran)
        have undone : Undo.cleanup (runIp refusal) ns.undo (host.with ns) = host :=
          undo_pair clean formed fresh (some ns.name)
        rw [put]
        iterate 6 refine brackets_config (fun _ => perform_if) undone ?_
        rfl

theorem isOk_map {α β : Type} (change : α → β) (result : Except String α) : (result.map change).isOk = result.isOk := by
  cases result <;> rfl

theorem create_eq (clean : Cleans refusal ns) (formed : host.WellFormed) :
    (ns.create refusal host).2 = if (ns.create refusal host).1.isOk then host.with ns else host := by
  have settled := Undo.attempt_eq (setup_brackets clean formed)
  simp only [NetworkNamespace.create, isOk_map]
  exact settled

/-- The names were free, where a namespace could be created. -/
theorem fresh_of_created (created : (ns.create refusal host).1.isOk = true) : Fresh ns host := by
  simp only [NetworkNamespace.create, isOk_map] at created
  obtain ⟨named, ran, rest⟩ := Undo.ok_of_attempt created
  obtain ⟨paired, linked, _⟩ := Undo.ok_of_attempt rest
  have added := runIp_ok ran
  have joined := runIp_ok linked
  simp only [perform] at added joined
  split at added
  · cases added
  · rename_i name
    cases added
    split at joined
    · cases joined
    · rename_i taken
      exact ⟨name, fun veth member same => taken (.inl (same ▸ linkNames_veth member))⟩

end One

/-! The namespaces of many sandboxes. -/

structure State where
  host : Host
  live : List NetworkNamespace

inductive Event where
  | create (shortId : String) (refusal : Command → Option String)
  | drop (ns : NetworkNamespace) (refusal : Command → Option String)

def step (state : State) : Event → State
  | .create shortId refusal =>
    let ns := NetworkNamespace.ofId shortId
    let (result, host) := ns.create refusal state.host
    ⟨host, if result.isOk then ns :: state.live else state.live⟩
  | .drop ns refusal =>
    if ns ∈ state.live then ⟨ns.drop refusal state.host, state.live.erase ns⟩ else state

/-- Whatever else fails, what is to be deleted can be. -/
def Event.Cleans : Event → Prop
  | .create shortId refusal => Netns.Cleans refusal (.ofId shortId)
  | .drop ns refusal => Netns.Cleans refusal ns

def Host.withAll (host : Host) (live : List NetworkNamespace) : Host := live.foldr (fun ns host => host.with ns) host

/-- The host is the one of before, with what the live namespaces have added. -/
structure Tracks (base : Host) (state : State) : Prop where
  host : state.host = base.withAll state.live
  fresh : ∀ ns ∈ state.live, Fresh ns base
  names : (state.live.map NetworkNamespace.name).Nodup
  links : (state.live.map NetworkNamespace.vethHost).Nodup

section Many

variable {base : Host} {state : State} {live : List NetworkNamespace} {ns : NetworkNamespace}
  {refusal : Command → Option String}

def NetworkNamespace.veth (ns : NetworkNamespace) : Veth := ⟨ns.vethHost, ns.vethSandbox, some ns.name⟩

theorem withAll_eq (base : Host) (live : List NetworkNamespace) :
    base.withAll live = ⟨live.map NetworkNamespace.name ++ base.namespaces,
      live.map NetworkNamespace.veth ++ base.veths, base.links⟩ := by
  induction live with
  | nil => rfl
  | cons ns rest ih =>
    rw [Host.withAll, List.foldr_cons, ← Host.withAll, ih]
    rfl

theorem wellFormed_withAll (formed : base.WellFormed) (live : List NetworkNamespace) :
    (base.withAll live).WellFormed := by
  intro veth member ns moved
  rw [withAll_eq] at member ⊢
  rcases List.mem_append.1 member with mine | theirs
  · obtain ⟨handle, listed, rfl⟩ := List.mem_map.1 mine
    cases moved
    exact List.mem_append_left _ (List.mem_map_of_mem listed)
  · exact List.mem_append_right _ (formed veth theirs ns moved)

theorem filter_erase {key : NetworkNamespace → String} (distinct : (live.map key).Nodup) (member : ns ∈ live) :
    live.filter (fun other => key other ≠ key ns) = live.erase ns := by
  rw [distinct.of_map.erase_eq_filter]
  refine List.filter_congr ?_
  intro other listed
  have keyed : key other ≠ key ns ↔ other ≠ ns :=
    not_congr ⟨List.inj_on_of_nodup_map distinct listed member, congrArg key⟩
  rw [Bool.eq_iff_iff, decide_eq_true_iff, bne_iff_ne]
  exact keyed

theorem map_erase {key : NetworkNamespace → String} (distinct : (live.map key).Nodup) (member : ns ∈ live) :
    (live.map key).erase (key ns) = (live.erase ns).map key := by
  rw [distinct.erase_eq_filter, List.filter_map, ← filter_erase distinct member]
  congr 1
  refine List.filter_congr ?_
  intro other _
  rw [Bool.eq_iff_iff, decide_eq_true_iff]
  exact bne_iff_ne

theorem linkDelete_withAll (fresh : Fresh ns base) (links : (live.map NetworkNamespace.vethHost).Nodup)
    (member : ns ∈ live) : perform (.linkDelete ns.vethHost) (base.withAll live) =
      .ok ⟨live.map NetworkNamespace.name ++ base.namespaces,
        (live.erase ns).map NetworkNamespace.veth ++ base.veths, base.links⟩ := by
  have theirs : (base.veths.filter fun veth => veth.host ≠ ns.vethHost) = base.veths := by
    refine List.filter_eq_self.2 ?_
    intro veth listed
    exact decide_eq_true (fresh.link veth listed)
  have found : ∃ veth ∈ live.map NetworkNamespace.veth ++ base.veths, veth.host = ns.vethHost :=
    ⟨ns.veth, List.mem_append_left _ (List.mem_map_of_mem member), rfl⟩
  simp only [perform, withAll_eq]
  rw [if_pos found, List.filter_append, theirs, List.filter_map, ← filter_erase links member]
  rfl

theorem netnsDelete_withAll (formed : base.WellFormed) (fresh : Fresh ns base)
    (names : (live.map NetworkNamespace.name).Nodup) (member : ns ∈ live) :
    perform (.netnsDelete ns.name) ⟨live.map NetworkNamespace.name ++ base.namespaces,
      (live.erase ns).map NetworkNamespace.veth ++ base.veths, base.links⟩ = .ok (base.withAll (live.erase ns)) := by
  have named : ns.name ∈ live.map NetworkNamespace.name := List.mem_map_of_mem member
  have others : (((live.erase ns).map NetworkNamespace.veth ++ base.veths).filter
      fun veth => veth.netns ≠ some ns.name) = (live.erase ns).map NetworkNamespace.veth ++ base.veths := by
    refine List.filter_eq_self.2 ?_
    intro veth listed
    refine decide_eq_true ?_
    intro moved
    rcases List.mem_append.1 listed with mine | theirs
    · obtain ⟨other, kept, rfl⟩ := List.mem_map.1 mine
      have same := List.inj_on_of_nodup_map names (List.mem_of_mem_erase kept) member (Option.some.inj moved)
      exact names.of_map.not_mem_erase (same ▸ kept)
    · exact fresh.name (formed veth theirs ns.name moved)
  simp only [perform]
  rw [if_pos (List.mem_append_left _ named), others, List.erase_append_left _ named, map_erase names member,
    withAll_eq]

/-- The pair goes with its host end, and the namespace takes nothing else along. -/
theorem drop_withAll (clean : Cleans refusal ns) (formed : base.WellFormed) (fresh : Fresh ns base)
    (names : (live.map NetworkNamespace.name).Nodup) (links : (live.map NetworkNamespace.vethHost).Nodup)
    (member : ns ∈ live) : ns.drop refusal (base.withAll live) = base.withAll (live.erase ns) := by
  have named : refusal (.linkDelete ns.vethHost) = none := clean _ (by simp [NetworkNamespace.undo])
  have listed : refusal (.netnsDelete ns.name) = none := clean _ (by simp [NetworkNamespace.undo])
  rw [NetworkNamespace.drop, NetworkNamespace.undo, cleanup_cons named (linkDelete_withAll fresh links member),
    cleanup_cons listed (netnsDelete_withAll formed fresh names member)]
  rfl

theorem tracks_initial (base : Host) : Tracks base ⟨base, []⟩ := ⟨rfl, nofun, List.nodup_nil, List.nodup_nil⟩

theorem Tracks.step (tracks : Tracks base state) (formed : base.WellFormed) {event : Event} (clean : event.Cleans) :
    Tracks base (step state event) := by
  obtain ⟨held, fresh, names, links⟩ := tracks
  cases event with
  | create shortId refusal =>
    have formed' := wellFormed_withAll formed state.live
    rw [← held] at formed'
    have settled := create_eq clean formed'
    unfold Netns.step
    dsimp only
    cases created : ((NetworkNamespace.ofId shortId).create refusal state.host).1.isOk with
    | false =>
      rw [created] at settled
      exact ⟨settled.trans held, fresh, names, links⟩
    | true =>
      rw [created] at settled
      have new := fresh_of_created created
      rw [held, withAll_eq] at new
      refine ⟨?_, ?_, ?_, ?_⟩
      · rw [settled, held]
        rfl
      · intro other listed
        rcases List.mem_cons.1 listed with first | later
        · rw [first]
          exact ⟨fun taken => new.name (List.mem_append_right _ taken),
            fun veth taken => new.link veth (List.mem_append_right _ taken)⟩
        · exact fresh other later
      · exact List.nodup_cons.2 ⟨fun taken => new.name (List.mem_append_left _ taken), names⟩
      · refine List.nodup_cons.2 ⟨?_, links⟩
        intro taken
        obtain ⟨other, listed, same⟩ := List.mem_map.1 taken
        exact new.link other.veth (List.mem_append_left _ (List.mem_map_of_mem listed)) same
  | drop ns refusal =>
    unfold Netns.step
    dsimp only
    split
    · rename_i member
      refine ⟨?_, fun other listed => fresh other (List.mem_of_mem_erase listed), ?_, ?_⟩
      · rw [held]
        exact drop_withAll clean formed (fresh ns member) names links member
      · exact names.sublist (List.erase_sublist.map _)
      · exact links.sublist (List.erase_sublist.map _)
    · exact ⟨held, fresh, names, links⟩

/-- Over every run the host keeps what it had, and has of the sandboxes exactly what belongs to the live ones. -/
theorem host_tracks_live (base : Host) (formed : base.WellFormed) (events : List Event)
    (clean : ∀ event ∈ events, event.Cleans) :
    (Machine.run step ⟨base, []⟩ events).host = base.withAll (Machine.run step ⟨base, []⟩ events).live := by
  have tracked : Tracks base (Machine.run step ⟨base, []⟩ events) :=
    Machine.run_invariant (Tracks base) (fun _ event member tracks => tracks.step formed (clean event member))
      (tracks_initial base)
  exact tracked.host

end Many

section Example

/-- The network of the host refuses the default route of the second sandbox. -/
def refusesRoute : Command → Option String
  | .routeAddIn _ _ => some "Network is unreachable"
  | _ => none

def twoSandboxes : List Event :=
  [.create "0a1b2c3d" fun _ => none, .create "9f8e7d6c" refusesRoute, .create "0a1b2c3d" fun _ => none,
    .drop (.ofId "0a1b2c3d") fun _ => none]

theorem twoSandboxes_leave_nothing :
    (Machine.run step ⟨⟨["cni-1"], [], ["eth0"]⟩, []⟩ twoSandboxes).host = ⟨["cni-1"], [], ["eth0"]⟩ := by
  have formed : (⟨["cni-1"], [], ["eth0"]⟩ : Host).WellFormed := nofun
  have clean : ∀ event ∈ twoSandboxes, event.Cleans := by
    intro event member
    simp only [twoSandboxes, List.mem_cons, List.not_mem_nil, or_false] at member
    rcases member with rfl | rfl | rfl | rfl
    · exact fun _ _ => rfl
    · intro command listed
      simp only [NetworkNamespace.undo, List.mem_cons, List.not_mem_nil, or_false] at listed
      rcases listed with rfl | rfl <;> rfl
    · exact fun _ _ => rfl
    · exact fun _ _ => rfl
  have gone : (Machine.run step ⟨⟨["cni-1"], [], ["eth0"]⟩, []⟩ twoSandboxes).live = [] := by decide
  rw [host_tracks_live _ formed _ clean, gone]
  rfl

end Example

end OpenShell.Sandbox.Netns
