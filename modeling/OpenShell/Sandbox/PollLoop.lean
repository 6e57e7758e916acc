import OpenShell.Lib.Machine
import OpenShell.Sandbox.Loaders
import OpenShell.Server.Settings

namespace OpenShell.Sandbox

open OpenShell.Policy
open OpenShell.Server (SettingValue)

/-! How a sandbox gets its policy: the fetch at its start, and the polls that follow. -/

inductive PolicySource where
  | unspecified | sandbox | global
deriving DecidableEq

/-- What the gateway answers to `get_sandbox_config`. -/
structure SettingsPollResult where
  policy : Option SandboxPolicy
  version : UInt32
  policyHash : String
  configRevision : UInt64
  policySource : PolicySource := .sandbox
  settings : StringMap (Option SettingValue) := ∅
  globalPolicyVersion : UInt32 := 0

structure StatusReport where
  version : UInt32
  loaded : Bool
  errorMsg : String

/-- A started sandbox. The first three fields come from the start, the others belong to the poll loop. -/
structure Supervisor where
  policy : SandboxPolicy
  engine : Json
  polled : Bool := false
  currentConfigRevision : UInt64 := 0
  currentPolicyHash : String := ""
  currentSettings : StringMap (Option SettingValue) := ∅
  ocsfEnabled : Bool := false
  reports : List StatusReport := []

/-! The start. -/

section Start

/-- The paths that the image has and every sandbox behind a proxy needs. -/
structure BaselinePaths where
  readOnly : List String
  readWrite : List String

def enrichReadOnly (fs : FilesystemPolicy) (path : String) : FilesystemPolicy :=
  if fs.readOnly.contains path || fs.readWrite.contains path then fs
  else { fs with readOnly := fs.readOnly ++ [path] }

def enrichReadWrite (fs : FilesystemPolicy) (path : String) : FilesystemPolicy :=
  if fs.readWrite.contains path then fs else { fs with readWrite := fs.readWrite ++ [path] }

def enrichProtoBaselinePaths (baseline : BaselinePaths) (proto : SandboxPolicy) : SandboxPolicy :=
  if proto.networkPolicies.entries.isEmpty then proto
  else
    let fs := proto.filesystem.getD { includeWorkdir := true }
    { proto with filesystem := some (baseline.readWrite.foldl enrichReadWrite (baseline.readOnly.foldl enrichReadOnly fs)) }

/-- The fetch that brings a policy. A gateway that has none is first sent the one that was discovered, which is a
change of its own; a policy that is refused ends the start. -/
def loadPolicy (baseline : BaselinePaths) (fetched : SettingsPollResult) : Option Supervisor :=
  fetched.policy.bind fun proto =>
    let policy := enrichProtoBaselinePaths baseline proto
    match fromProtoData policy with
    | .ok engine => some { policy := policy, engine := engine }
    | .error _ => none

end Start

/-! The polls. -/

section Polls

def extractBoolSetting (settings : StringMap (Option SettingValue)) (key : String) : Option Bool :=
  match settings.lookup key with
  | some (some (.boolValue value)) => some value
  | _ => none

namespace Supervisor

variable (sandbox : Supervisor) (result : SettingsPollResult)

def record : Supervisor :=
  { sandbox with
    currentConfigRevision := result.configRevision
    currentPolicyHash := result.policyHash
    currentSettings := result.settings }

/-- A policy of the sandbox's own history is reported on, a global one is not. -/
def report (loaded : Bool) (errorMsg : String) : Supervisor :=
  if 0 < result.version && result.policySource = .sandbox then
    { sandbox with reports := sandbox.reports ++ [⟨result.version, loaded, errorMsg⟩] }
  else sandbox

def reloadFromProto (policy : SandboxPolicy) : Except String Supervisor :=
  match fromProtoData policy with
  | .ok engine => .ok { sandbox with engine := engine }
  | .error reason => .error reason

/-- The first poll only notes what the gateway has. -/
def initialPoll (answer : Option SettingsPollResult) : Supervisor :=
  match answer with
  | some result => { sandbox.record result with polled := true }
  | none => { sandbox with polled := true }

def toggleOcsf : Supervisor :=
  { sandbox with ocsfEnabled := (extractBoolSetting result.settings "ocsf_json_enabled").getD false }

def reload (policy : SandboxPolicy) : Supervisor :=
  match sandbox.reloadFromProto policy with
  | .ok reloaded => reloaded.report result true ""
  | .error reason => sandbox.report result false reason

def laterPoll : Supervisor :=
  if result.configRevision = sandbox.currentConfigRevision then sandbox
  else if result.policyHash = sandbox.currentPolicyHash then (sandbox.toggleOcsf result).record result
  else
    match result.policy with
    | none => sandbox.record result
    | some policy => ((sandbox.reload result policy).toggleOcsf result).record result

def poll (answer : Option SettingsPollResult) : Supervisor :=
  if sandbox.polled then
    match answer with
    | some result => sandbox.laterPoll result
    | none => sandbox
  else sandbox.initialPoll answer

end Supervisor

end Polls

/-! The gateway and the sandbox together. -/

structure Deployment where
  gateway : SettingsPollResult
  sandbox : Option Supervisor := none

inductive DeploymentEvent where
  | change (config : SettingsPollResult)
  | start (baseline : BaselinePaths)
  | poll (answered : Bool)

def Deployment.step (deployment : Deployment) : DeploymentEvent → Deployment
  | .change config => { deployment with gateway := config }
  | .start baseline => { deployment with sandbox := loadPolicy baseline deployment.gateway }
  | .poll answered =>
    { deployment with
      sandbox := deployment.sandbox.map (·.poll (if answered then some deployment.gateway else none)) }

/-! What a poll owes to its answer. -/

def networkDocument (data : Json) : Option Json := data.get "network_policies"

/-- The engine runs the network policies of the answer, if it carries a policy that is accepted. -/
def Holds (engine : Json) (result : SettingsPollResult) : Prop :=
  ∀ policy data, result.policy = some policy → fromProtoData policy = .ok data →
    networkDocument engine = networkDocument data

structure FollowsPoll (before after : Supervisor) (result : SettingsPollResult) : Prop where
  loaded : Holds after.engine result
  kept : ∀ policy reason, result.policy = some policy → fromProtoData policy = .error reason → after.engine = before.engine

/-- Different policies have different hashes, and different configurations different revisions; only the absence of a
policy has the empty hash. -/
structure Distinguished (configs : List SettingsPollResult) : Prop where
  hashes : ∀ first ∈ configs, ∀ second ∈ configs, first.policyHash = second.policyHash →
    Option.Rel SandboxPolicy.Same first.policy second.policy
  revisions : ∀ first ∈ configs, ∀ second ∈ configs, first.configRevision = second.configRevision →
    Option.Rel SandboxPolicy.Same first.policy second.policy
  filled : ∀ config ∈ configs, config.policyHash = "" → config.policy = none

/-- An accepted answer to the first poll has the network policies of the start, and one that is the first to arrive
after failed polls does not have the revision zero. -/
structure Supervisor.Timely (sandbox : Supervisor) (result : SettingsPollResult) : Prop where
  first : sandbox.polled = false → ∀ policy data, result.policy = some policy → fromProtoData policy = .ok data →
    networkDocument (protoToOpaDataJson policy) = networkDocument (protoToOpaDataJson sandbox.policy)
  unanswered : sandbox.polled = true → sandbox.currentPolicyHash = "" → ∀ policy data, result.policy = some policy →
    fromProtoData policy = .ok data → result.configRevision ≠ sandbox.currentConfigRevision

def Deployment.Timely (deployment : Deployment) (event : DeploymentEvent) : Prop :=
  event = .poll true → ∀ sandbox, deployment.sandbox = some sandbox → sandbox.Timely deployment.gateway

def DeploymentEvent.config : DeploymentEvent → Option SettingsPollResult
  | .change config => some config
  | _ => none

/-! Documents of the same policies. -/

section Documents

theorem fromProtoData_eq {policy : SandboxPolicy} {data : Json} (accepted : fromProtoData policy = .ok data) :
    data = expandAccessPresets (protoToOpaDataJson policy) := by
  unfold fromProtoData at accepted
  simp only at accepted
  split at accepted
  · cases accepted
  · cases accepted
    rfl

theorem networkDocument_expanded (data : Json) : networkDocument (expandAccessPresets data) =
    (networkDocument data).map (Json.mapObject (Json.modify "endpoints" (Json.mapArray expandAccess))) :=
  Json.get_modify

theorem fromProtoData_same {first second : SandboxPolicy} (same : first.Same second) :
    fromProtoData first = fromProtoData second := by
  have sorted : SortedMap.ofMap first.networkPolicies = SortedMap.ofMap second.networkPolicies := by
    apply SortedMap.eq_of_perm
    exact (SortedMap.sortEntries_perm _).trans (same.networkPolicies.trans (SortedMap.sortEntries_perm _).symm)
  have documents : protoToOpaDataJson first = protoToOpaDataJson second := by
    unfold protoToOpaDataJson
    rw [same.filesystem, same.landlock, same.process, sorted]
  unfold fromProtoData
  rw [documents]

theorem Holds.of_same {engine : Json} {first second : SettingsPollResult} (holds : Holds engine first)
    (same : Option.Rel SandboxPolicy.Same first.policy second.policy) : Holds engine second := by
  intro policy data isPolicy accepted
  rw [isPolicy] at same
  generalize held : first.policy = earlier at same
  cases same with
  | some counterpart => exact holds _ data held (by rw [fromProtoData_same counterpart]; exact accepted)

end Documents

/-! One poll. -/

section OnePoll

namespace Supervisor

variable (sandbox : Supervisor) (result : SettingsPollResult)

@[simp] theorem report_engine (loaded : Bool) (errorMsg : String) : (sandbox.report result loaded errorMsg).engine = sandbox.engine := by
  unfold report
  split <;> rfl

theorem reload_engine (policy : SandboxPolicy) :
    (sandbox.reload result policy).engine = (fromProtoData policy).toOption.getD sandbox.engine := by
  unfold reload reloadFromProto
  cases fromProtoData policy with
  | ok data => simp [Except.toOption]
  | error reason => simp [Except.toOption]

/-- What a later poll may do: nothing, or note the answer, with or without loading its policy. -/
theorem laterPoll_cases :
    (result.configRevision = sandbox.currentConfigRevision ∧ sandbox.laterPoll result = sandbox) ∨
    ((sandbox.laterPoll result).currentConfigRevision = result.configRevision ∧
      (sandbox.laterPoll result).currentPolicyHash = result.policyHash ∧
      (result.policyHash = sandbox.currentPolicyHash ∧ (sandbox.laterPoll result).engine = sandbox.engine ∨
        (sandbox.laterPoll result).engine =
          (result.policy.bind fun policy => (fromProtoData policy).toOption).getD sandbox.engine)) := by
  unfold laterPoll
  by_cases unchanged : result.configRevision = sandbox.currentConfigRevision
  · exact Or.inl ⟨unchanged, if_pos unchanged⟩
  · right
    rw [if_neg unchanged]
    by_cases samePolicy : result.policyHash = sandbox.currentPolicyHash
    · rw [if_pos samePolicy]
      exact ⟨rfl, rfl, Or.inl ⟨samePolicy, rfl⟩⟩
    · rw [if_neg samePolicy]
      cases result.policy with
      | none => exact ⟨rfl, rfl, Or.inr rfl⟩
      | some policy => exact ⟨rfl, rfl, Or.inr (sandbox.reload_engine result policy)⟩

theorem laterPoll_polled : (sandbox.laterPoll result).polled = sandbox.polled := by
  have reported : ∀ (held : Supervisor) loaded errorMsg, (held.report result loaded errorMsg).polled = held.polled := by
    intro held loaded errorMsg
    unfold report
    split <;> rfl
  have reloaded : ∀ policy, (sandbox.reload result policy).polled = sandbox.polled := by
    intro policy
    unfold reload reloadFromProto
    cases fromProtoData policy with
    | ok data => exact reported _ _ _
    | error reason => exact reported _ _ _
  unfold laterPoll
  split
  · rfl
  · split
    · rfl
    · cases result.policy with
      | none => rfl
      | some policy => exact reloaded policy

end Supervisor

end OnePoll

/-! What the loop keeps. -/

section Loop

variable {known : List SettingsPollResult}

/-- Before the first poll the engine runs what the start loaded; later it runs what the last noted answer had. -/
structure Supervisor.Sound (known : List SettingsPollResult) (sandbox : Supervisor) : Prop where
  started : sandbox.polled = false → fromProtoData sandbox.policy = .ok sandbox.engine
  noted : sandbox.currentPolicyHash = "" ∨ ∃ seen ∈ known, sandbox.currentConfigRevision = seen.configRevision ∧
    sandbox.currentPolicyHash = seen.policyHash ∧ Holds sandbox.engine seen

variable {sandbox : Supervisor} {result : SettingsPollResult}

theorem holds_initialPoll (sound : sandbox.Sound known) (unpolled : sandbox.polled = false) (timely : sandbox.Timely result) :
    Holds sandbox.engine result := by
  intro policy data isPolicy accepted
  have same := timely.first unpolled policy data isPolicy accepted
  rw [fromProtoData_eq accepted, fromProtoData_eq (sound.started unpolled), networkDocument_expanded,
    networkDocument_expanded, same]

theorem holds_laterPoll (distinct : Distinguished known) (member : result ∈ known) (sound : sandbox.Sound known)
    (polled : sandbox.polled = true) (timely : sandbox.Timely result) : Holds (sandbox.laterPoll result).engine result := by
  rcases sandbox.laterPoll_cases result with ⟨unchanged, kept⟩ | ⟨_, _, ⟨samePolicy, kept⟩ | reloaded⟩
  · rw [kept]
    rcases sound.noted with unanswered | ⟨seen, listed, revision, _, holds⟩
    · intro policy data isPolicy accepted
      exact absurd unchanged (timely.unanswered polled unanswered policy data isPolicy accepted)
    · exact holds.of_same (distinct.revisions seen listed result member (by rw [← revision, unchanged]))
  · rw [kept]
    rcases sound.noted with unanswered | ⟨seen, listed, _, hash, holds⟩
    · intro policy data isPolicy
      rw [distinct.filled result member (by rw [samePolicy, unanswered])] at isPolicy
      cases isPolicy
    · exact holds.of_same (distinct.hashes seen listed result member (by rw [← hash, samePolicy]))
  · intro policy data isPolicy accepted
    rw [reloaded, isPolicy, Option.bind_some, accepted]
    rfl

theorem sound_laterPoll (distinct : Distinguished known) (member : result ∈ known) (sound : sandbox.Sound known)
    (polled : sandbox.polled = true) (timely : sandbox.Timely result) : (sandbox.laterPoll result).Sound known := by
  have holds := holds_laterPoll distinct member sound polled timely
  constructor
  · rw [sandbox.laterPoll_polled, polled]
    exact fun unpolled => Bool.noConfusion unpolled
  · rcases sandbox.laterPoll_cases result with ⟨_, kept⟩ | ⟨revision, hash, _⟩
    · rw [kept]
      exact sound.noted
    · exact Or.inr ⟨result, member, revision, hash, holds⟩

theorem holds_poll (distinct : Distinguished known) (member : result ∈ known) (sound : sandbox.Sound known)
    (timely : sandbox.Timely result) : Holds (sandbox.poll (some result)).engine result := by
  unfold Supervisor.poll
  cases polled : sandbox.polled with
  | true => exact holds_laterPoll distinct member sound polled timely
  | false =>
    have started := holds_initialPoll sound polled timely
    exact started

theorem sound_poll (distinct : Distinguished known) (member : result ∈ known) (sound : sandbox.Sound known)
    (timely : sandbox.Timely result) : (sandbox.poll (some result)).Sound known := by
  have holds := holds_poll distinct member sound timely
  unfold Supervisor.poll at holds ⊢
  cases polled : sandbox.polled with
  | true => exact sound_laterPoll distinct member sound polled timely
  | false =>
    rw [polled] at holds
    exact ⟨fun unpolled => Bool.noConfusion unpolled, Or.inr ⟨result, member, rfl, rfl, holds⟩⟩

theorem sound_failedPoll (sound : sandbox.Sound known) : (sandbox.poll none).Sound known := by
  unfold Supervisor.poll
  cases polled : sandbox.polled with
  | true => exact sound
  | false => exact ⟨fun unpolled => Bool.noConfusion unpolled, sound.noted⟩

theorem sound_loadPolicy {baseline : BaselinePaths} (loaded : loadPolicy baseline result = some sandbox) :
    sandbox.Sound known := by
  unfold loadPolicy at loaded
  obtain ⟨proto, _, made⟩ := Option.bind_eq_some_iff.mp loaded
  cases accepted : fromProtoData (enrichProtoBaselinePaths baseline proto) with
  | error reason => simp [accepted] at made
  | ok engine =>
    simp only [accepted, Option.some.injEq] at made
    subst made
    exact ⟨fun _ => accepted, Or.inl rfl⟩

/-- A refused policy leaves the engine as it was, whenever it comes. -/
theorem kept_poll {policy : SandboxPolicy} {reason : String} (isPolicy : result.policy = some policy)
    (refused : fromProtoData policy = .error reason) : (sandbox.poll (some result)).engine = sandbox.engine := by
  unfold Supervisor.poll
  cases sandbox.polled with
  | false => rfl
  | true =>
    rcases sandbox.laterPoll_cases result with ⟨_, kept⟩ | ⟨_, _, ⟨_, kept⟩ | reloaded⟩
    · exact congrArg Supervisor.engine kept
    · exact kept
    · rw [isPolicy, Option.bind_some, refused] at reloaded
      exact reloaded

structure Deployment.Sound (known : List SettingsPollResult) (deployment : Deployment) : Prop where
  listed : deployment.gateway ∈ known
  sandbox : ∀ sandbox, deployment.sandbox = some sandbox → sandbox.Sound known

theorem sound_step (distinct : Distinguished known) {deployment : Deployment} {event : DeploymentEvent}
    (sound : deployment.Sound known) (timely : deployment.Timely event)
    (listed : ∀ config, event.config = some config → config ∈ known) : (deployment.step event).Sound known := by
  cases event with
  | change config => exact ⟨listed config rfl, sound.sandbox⟩
  | start baseline => exact ⟨sound.listed, fun sandbox loaded => sound_loadPolicy loaded⟩
  | poll answered =>
    refine ⟨sound.listed, ?_⟩
    intro polled isPolled
    obtain ⟨sandbox, isSandbox, rfl⟩ := Option.map_eq_some_iff.mp isPolled
    cases answered with
    | false => exact sound_failedPoll (sound.sandbox sandbox isSandbox)
    | true => exact sound_poll distinct sound.listed (sound.sandbox sandbox isSandbox) (timely rfl sandbox isSandbox)

/-- In a run whose answers come in time, the engine follows every answered poll. -/
theorem sandbox_follows_gateway (initial : SettingsPollResult) (events : List DeploymentEvent)
    (distinct : Distinguished (initial :: events.filterMap DeploymentEvent.config))
    (timely : Machine.Along Deployment.step Deployment.Timely { gateway := initial } (events ++ [.poll true])) :
    ∀ sandbox, (Machine.run Deployment.step { gateway := initial } events).sandbox = some sandbox →
      FollowsPoll sandbox (sandbox.poll (some (Machine.run Deployment.step { gateway := initial } events).gateway))
        (Machine.run Deployment.step { gateway := initial } events).gateway := by
  intro sandbox isSandbox
  obtain ⟨earlier, last⟩ := Machine.along_append.mp timely
  have sound : (Machine.run Deployment.step { gateway := initial } events).Sound
      (initial :: events.filterMap DeploymentEvent.config) := by
    refine earlier.invariant (Deployment.Sound _) ?_ ⟨List.mem_cons_self, by simp⟩
    intro deployment event member sound timely
    refine sound_step distinct sound timely ?_
    intro config isConfig
    exact List.mem_cons_of_mem _ (List.mem_filterMap.mpr ⟨event, member, isConfig⟩)
  constructor
  · exact holds_poll distinct sound.listed (sound.sandbox sandbox isSandbox) (last.1 rfl sandbox isSandbox)
  · intro policy reason isPolicy refused
    exact kept_poll isPolicy refused

def hostPolicy (host : String) : SandboxPolicy :=
  { networkPolicies := AList.singleton "api" { endpoints := [{ host := host, ports := [443] }] } }

def hostConfig (host hash : String) (revision : UInt64) : SettingsPollResult :=
  { policy := some (hostPolicy host), version := 1, policyHash := hash, configRevision := revision }

theorem distinguished_of_nodup {configs : List SettingsPollResult} (hashes : (configs.map (·.policyHash)).Nodup)
    (revisions : (configs.map (·.configRevision)).Nodup) (filled : "" ∉ configs.map (·.policyHash)) :
    Distinguished configs := by
  have related : ∀ config : SettingsPollResult, Option.Rel SandboxPolicy.Same config.policy config.policy := by
    intro config
    cases config.policy with
    | none => exact .none
    | some policy => exact .some (.refl policy)
  constructor
  · intro first member second other same
    rw [List.inj_on_of_nodup_map hashes member other same]
    exact related second
  · intro first member second other same
    rw [List.inj_on_of_nodup_map revisions member other same]
    exact related second
  · intro config member empty
    exact absurd (empty ▸ List.mem_map_of_mem member) filled

theorem fromProtoData_of_clean {policy : SandboxPolicy}
    (clean : (validateL7Policies (protoToOpaDataJson policy)).errors.isEmpty = true) :
    fromProtoData policy = .ok (expandAccessPresets (protoToOpaDataJson policy)) :=
  if_neg (by simpa using clean)

def hostSupervisor (host : String) : Supervisor :=
  let policy := enrichProtoBaselinePaths ⟨[], []⟩ (hostPolicy host)
  { policy := policy, engine := expandAccessPresets (protoToOpaDataJson policy) }

theorem loadPolicy_host {host : String} (hash : String) (revision : UInt64)
    (clean : (validateL7Policies (protoToOpaDataJson (enrichProtoBaselinePaths ⟨[], []⟩ (hostPolicy host)))).errors.isEmpty =
      true) : loadPolicy ⟨[], []⟩ (hostConfig host hash revision) = some (hostSupervisor host) := by
  unfold loadPolicy hostConfig
  simp only [Option.bind_some, fromProtoData_of_clean clean]
  rfl

/-- A policy that is changed between the start and the first poll is noted and never loaded. -/
theorem change_before_first_poll_missed :
    ¬ ∀ (initial : SettingsPollResult) (events : List DeploymentEvent),
      Distinguished (initial :: events.filterMap DeploymentEvent.config) →
      ∀ sandbox, (Machine.run Deployment.step { gateway := initial } events).sandbox = some sandbox →
        FollowsPoll sandbox (sandbox.poll (some (Machine.run Deployment.step { gateway := initial } events).gateway))
          (Machine.run Deployment.step { gateway := initial } events).gateway := by
  intro follows
  have distinct : Distinguished [hostConfig "a.test" "a" 1, hostConfig "b.test" "b" 2] :=
    distinguished_of_nodup (by decide) (by decide) (by decide)
  have started : (Machine.run Deployment.step { gateway := hostConfig "a.test" "a" 1 }
      [.start ⟨[], []⟩, .change (hostConfig "b.test" "b" 2)]).sandbox = some (hostSupervisor "a.test") :=
    loadPolicy_host "a" 1 (by decide +kernel)
  have loaded := (follows (hostConfig "a.test" "a" 1) [.start ⟨[], []⟩, .change (hostConfig "b.test" "b" 2)] distinct _
    started).loaded (hostPolicy "b.test") _ rfl (fromProtoData_of_clean (by decide +kernel))
  have hosts := congrArg (fun document => ((document.bind Json.asObject).getD []).flatMap fun entry =>
    ((items "endpoints" entry.2).getD []).map (field "host")) loaded
  exact absurd hosts (by decide +kernel)

/-- A change after the first poll is loaded by the next one. -/
theorem change_after_first_poll_followed :
    FollowsPoll ((hostSupervisor "a.test").poll (some (hostConfig "a.test" "a" 1)))
      (((hostSupervisor "a.test").poll (some (hostConfig "a.test" "a" 1))).poll (some (hostConfig "b.test" "b" 2)))
      (hostConfig "b.test" "b" 2) := by
  have loaded : loadPolicy ⟨[], []⟩ (hostConfig "a.test" "a" 1) = some (hostSupervisor "a.test") :=
    loadPolicy_host "a" 1 (by decide +kernel)
  have distinct : Distinguished [hostConfig "a.test" "a" 1, hostConfig "b.test" "b" 2] :=
    distinguished_of_nodup (by decide) (by decide) (by decide)
  have polled : (loadPolicy ⟨[], []⟩ (hostConfig "a.test" "a" 1)).map (·.poll (some (hostConfig "a.test" "a" 1))) =
      some ((hostSupervisor "a.test").poll (some (hostConfig "a.test" "a" 1))) := by
    rw [loaded]
    rfl
  refine sandbox_follows_gateway (hostConfig "a.test" "a" 1)
    [.start ⟨[], []⟩, .poll true, .change (hostConfig "b.test" "b" 2)] distinct ⟨?_, ?_, ?_, ?_, trivial⟩ _ polled
  · intro start
    cases start
  · intro _ sandbox isSandbox
    have same : sandbox = hostSupervisor "a.test" := Option.some.inj (isSandbox.symm.trans loaded)
    subst same
    refine ⟨?_, fun polled => Bool.noConfusion polled⟩
    intro _ policy data isPolicy
    cases isPolicy
    exact fun _ => rfl
  · intro change
    cases change
  · intro _ sandbox isSandbox
    have same := Option.some.inj (isSandbox.symm.trans polled)
    subst same
    exact ⟨fun unpolled => Bool.noConfusion unpolled, fun _ empty => absurd empty (by decide)⟩

end Loop

end OpenShell.Sandbox
