import OpenShell.Server.Approval
import OpenShell.Server.DraftRuns
import OpenShell.Server.GlobalHistory
import OpenShell.Server.SafePolicies

namespace OpenShell.Server

open OpenShell.Policy Effects Effects.Fallible Relational

variable {Blob : Type}

/-! The configuration that a sandbox is served: the latest revision, or else the policy of the record,
    which is then stored as the first revision. -/

inductive SettingScope where
  | unspecified
  | sandbox
  | global
deriving DecidableEq

def SettingScope.number : SettingScope → UInt32
  | .unspecified => 0
  | .sandbox => 1
  | .global => 2

inductive PolicySource where
  | unspecified
  | sandbox
  | global
deriving DecidableEq

def PolicySource.number : PolicySource → UInt32
  | .unspecified => 0
  | .sandbox => 1
  | .global => 2

structure EffectiveSetting where
  value : Option SettingValue
  scope : SettingScope

structure GetSandboxConfigResponse where
  policy : Option SandboxPolicy
  version : UInt32
  policyHash : String
  settings : StringMap EffectiveSetting
  configRevision : UInt64
  policySource : PolicySource
  globalPolicyVersion : UInt32

def storedSettingToProto : StoredSettingValue → Except Status SettingValue
  | .string v => .ok (.stringValue v)
  | .bool v => .ok (.boolValue v)
  | .int v => .ok (.intValue v)
  | .bytes v =>
    match Text.hexDecode v.toList with
    | .ok decoded => .ok (.bytesValue decoded)
    | .error problem => .error ⟨.internal, "stored bytes decode failed: " ++ problem⟩

/-- The entries of a `BTreeMap`, in the order of their keys. -/
def sortedEntries {β : Type} (map : StringMap β) : List (String × β) :=
  (map.entries.map fun entry => (entry.1, entry.2)).mergeSort fun first second => first.1 ≤ second.1

def mergeSettingsOf (scope : SettingScope) (merged : StringMap EffectiveSetting) (stored : StoredSettings) :
    Except Status (StringMap EffectiveSetting) :=
  (sortedEntries stored.settings).foldlM (fun merged entry =>
    if entry.1 = policySettingKey ∨ (settingForKey entry.1).isNone then .ok merged
    else (storedSettingToProto entry.2).map fun value => merged.insert entry.1 ⟨some value, scope⟩) merged

def mergeEffectiveSettings (global sandbox : StoredSettings) : Except Status (StringMap EffectiveSetting) := do
  let unset := registeredSettings.foldl
    (fun merged registered => AList.insert registered.key ⟨none, .unspecified⟩ merged) ∅
  let merged ← mergeSettingsOf .sandbox unset sandbox
  mergeSettingsOf .global merged global

theorem mergeSettingsOf_unset (scope : SettingScope) (merged : StringMap EffectiveSetting) :
    mergeSettingsOf scope merged {} = .ok merged := by
  have unset : sortedEntries ({} : StoredSettings).settings = [] := List.mergeSort_nil
  rw [mergeSettingsOf, unset]
  rfl

theorem mergeEffectiveSettings_unset : ∃ effective, mergeEffectiveSettings {} {} = .ok effective := by
  simp only [mergeEffectiveSettings, mergeSettingsOf_unset]
  exact ⟨_, rfl⟩

def leBytes64 (value : Int) : List UInt8 :=
  (List.range 8).map fun index => UInt8.ofNat ((value % 2 ^ 64).toNat / 256 ^ index)

def settingValueBytes : SettingValue → List UInt8
  | .stringValue v => 0 :: v.toUTF8.toList
  | .boolValue v => [1, v.toUInt8]
  | .intValue v => 2 :: leBytes64 v
  | .bytesValue v => 3 :: v

variable (wire : Wire Blob)

def configHashInput (policy : Option SandboxPolicy) (settings : StringMap EffectiveSetting)
    (policySource : PolicySource) : List UInt8 :=
  toLeBytes policySource.number ++
  (policy.elim [] fun policy => (deterministicPolicyHash wire policy).toUTF8.toList) ++
  (sortedEntries settings).flatMap fun entry =>
    entry.1.toUTF8.toList ++ toLeBytes entry.2.scope.number ++ entry.2.value.elim [] settingValueBytes

/-- The first eight bytes of the digest, the least significant one first. -/
def computeConfigRevision (policy : Option SandboxPolicy) (settings : StringMap EffectiveSetting)
    (policySource : PolicySource) : UInt64 :=
  let digest := (Text.hexDecode (wire.sha256Hex (configHashInput wire policy settings policySource)).toList).toOption
  UInt64.ofNat (((digest.getD []).take 8).foldr (fun byte value => byte.toNat + 256 * value) 0)

/-- Without a revision the policy of the record is served. That it cannot be stored, or not be marked as
    loaded, is logged and nothing else. -/
def serveFromSpec (sandboxId : String) (sandbox : Sandbox) : Handler Blob (Option SandboxPolicy × UInt32 × String) := do
  let spec ← orElse ⟨.internal, "sandbox has no spec"⟩ sandbox.spec
  match spec.policy with
  | none => pure (none, 0, "")
  | some specPolicy =>
    let hash := deterministicPolicyHash wire specPolicy
    match ← ask (.putPolicyRevision sandboxId 1 (wire.encodePolicy specPolicy) hash) with
    | Except.error _ => pure ()
    | Except.ok () =>
      let _ ← ask (.updatePolicyStatus sandboxId 1 .loaded none none)
      pure ()
    pure (some specPolicy, 1, hash)

def serveFromHistory (record : PolicyRecord Blob) : Handler Blob (Option SandboxPolicy × UInt32 × String) := do
  let decoded ← orInternal "decode policy failed" (wire.decodePolicy record.policyPayload)
  pure (some decoded, versionNumber record.version, record.policyHash)

def sandboxSource (sandboxId : String) (sandbox : Sandbox) :
    Option (PolicyRecord Blob) → Handler Blob (Option SandboxPolicy × UInt32 × String)
  | some record => serveFromHistory wire record
  | none => serveFromSpec wire sandboxId sandbox

def globalVersionOf : Except String (Option (PolicyRecord Blob)) → UInt32
  | .ok (some record) => versionNumber record.version
  | _ => 0

def handleGetSandboxConfig (decode : List UInt8 → Except String SandboxPolicy) (sandboxId : String) :
    Handler Blob GetSandboxConfigResponse := do
  let found ← orInternal "fetch sandbox failed" (← ask (.getSandbox sandboxId))
  let sandbox ← orElse sandboxNotFound found
  let latest ← orInternal "fetch policy history failed" (← ask (.getLatestPolicy sandboxId))
  let (policy, version, policyHash) ← sandboxSource wire sandboxId sandbox latest
  let globalSettings ← loadGlobalSettings
  let sandboxSettings ← loadSandboxSettings sandboxId
  match ← lift (decodePolicyFromGlobalSettings decode globalSettings) with
  | some globalPolicy =>
    let globalPolicyVersion := globalVersionOf (← ask (.getLatestPolicy globalPolicySandboxId))
    let settings ← lift (mergeEffectiveSettings globalSettings sandboxSettings)
    pure ⟨some globalPolicy, if version = 0 then 1 else version, deterministicPolicyHash wire globalPolicy, settings,
      computeConfigRevision wire (some globalPolicy) settings .global, .global, globalPolicyVersion⟩
  | none =>
    let settings ← lift (mergeEffectiveSettings globalSettings sandboxSettings)
    pure ⟨policy, version, policyHash, settings, computeConfigRevision wire policy settings .sandbox, .sandbox, 0⟩

/-! What is served, as far as the policy goes. -/

namespace Store

def effectiveSettings (store : Store Blob) (sandboxId : String) : Except Status (StringMap EffectiveSetting) :=
  mergeEffectiveSettings store.globalSettings ((store.getSettings (.sandbox sandboxId)).getD {})

def served (decode : List UInt8 → Except String SandboxPolicy) (store : Store Blob) (sandboxId : String) :
    Except Status (Option SandboxPolicy) :=
  ((handleGetSandboxConfig wire decode sandboxId).run exec store).1.map GetSandboxConfigResponse.policy

end Store

section Served

variable {wire} {decode : List UInt8 → Except String SandboxPolicy} {store : Store Blob} {sandbox : Sandbox}
  {sandboxId : String}

variable (decode) in
theorem decode_unfrozen (unfrozen : store.globalPolicy = false) :
    decodePolicyFromGlobalSettings decode store.globalSettings = .ok none := by
  have absent : store.globalSettings.settings.lookup policySettingKey = none := by
    simpa [Store.globalPolicy, Store.globalSettings] using unfrozen
  simp only [decodePolicyFromGlobalSettings, absent]

/-- Whichever way the policy is found, the settings decide only whether the call fails. -/
theorem served_of_found {policy : Option SandboxPolicy} {version : UInt32} {hash : String} {after : Store Blob}
    (present : store.getSandbox sandboxId = some sandbox)
    (ran : (sandboxSource wire sandboxId sandbox (store.getLatestPolicy sandboxId)).run Store.exec store =
      (.ok (policy, version, hash), after))
    (settings : after.settings = store.settings) (unfrozen : store.globalPolicy = false) :
    store.served wire decode sandboxId = (store.effectiveSettings sandboxId).map fun _ => policy := by
  have same : ∀ scope, after.getSettings scope = store.getSettings scope := by
    intro scope
    unfold Store.getSettings
    rw [settings]
  have none := decode_unfrozen decode unfrozen
  unfold Store.globalSettings at none
  unfold Store.served handleGetSandboxConfig Store.effectiveSettings Store.globalSettings
  simp only [run_ask_bind, Store.exec, run_orInternal_ok_bind, present, run_orElse_some_bind]
  rw [run_bind_of_ok ran]
  simp only [loadGlobalSettings, loadSandboxSettings, run_loadSettingsRecord_bind, same, none]
  cases mergeEffectiveSettings ((store.getSettings .global).getD {}) ((store.getSettings (.sandbox sandboxId)).getD {})
    <;> rfl

theorem served_history {record : PolicyRecord Blob} {policy : SandboxPolicy}
    (present : store.getSandbox sandboxId = some sandbox) (latest : store.getLatestPolicy sandboxId = some record)
    (decoded : wire.decodePolicy record.policyPayload = .ok policy) (unfrozen : store.globalPolicy = false) :
    store.served wire decode sandboxId = (store.effectiveSettings sandboxId).map fun _ => some policy := by
  have ran : (sandboxSource wire sandboxId sandbox (store.getLatestPolicy sandboxId)).run Store.exec store =
      (.ok (some policy, versionNumber record.version, record.policyHash), store) := by
    simp only [latest, sandboxSource, serveFromHistory, decoded, run_orInternal_ok_bind]
    rfl
  exact served_of_found present ran rfl unfrozen

theorem served_spec {spec : SandboxSpec} (present : store.getSandbox sandboxId = some sandbox)
    (fresh : store.getLatestPolicy sandboxId = none) (specified : sandbox.spec = some spec)
    (unfrozen : store.globalPolicy = false) :
    store.served wire decode sandboxId = (store.effectiveSettings sandboxId).map fun _ => spec.policy := by
  cases given : spec.policy with
  | none =>
    have ran : (sandboxSource wire sandboxId sandbox (store.getLatestPolicy sandboxId)).run Store.exec store =
        (.ok (none, 0, ""), store) := by
      simp only [fresh, sandboxSource, serveFromSpec, specified, run_orElse_some_bind, given]
      rfl
    exact served_of_found present ran rfl unfrozen
  | some policy =>
    obtain ⟨result, written⟩ := store.putPolicyRevision_next sandboxId (wire.encodePolicy policy)
      (deterministicPolicyHash wire policy)
    have first : store.latestVersion sandboxId + 1 = 1 := by
      simp only [Store.latestVersion, fresh, Option.elim_none]
    rw [first] at written
    have ran : (sandboxSource wire sandboxId sandbox (store.getLatestPolicy sandboxId)).run Store.exec store =
        (.ok (some policy, 1, deterministicPolicyHash wire policy),
          result.updatePolicyStatus sandboxId 1 .loaded none none) := by
      simp only [fresh, sandboxSource, serveFromSpec, specified, run_orElse_some_bind, given, run_ask_bind, Store.exec,
        written, Store.write]
      rfl
    have settings : (result.updatePolicyStatus sandboxId 1 .loaded none none).settings = store.settings := by
      rw [(Store.putPolicyRevision_ok written).2]
      rfl
    exact served_of_found present ran settings unfrozen

theorem served_unspecified (present : store.getSandbox sandboxId = some sandbox)
    (fresh : store.getLatestPolicy sandboxId = none) (unspecified : sandbox.spec = none) :
    store.served wire decode sandboxId = .error ⟨.internal, "sandbox has no spec"⟩ := by
  unfold Store.served handleGetSandboxConfig
  simp only [run_ask_bind, Store.exec, run_orInternal_ok_bind, present, run_orElse_some_bind, fresh, sandboxSource,
    serveFromSpec, unspecified]
  rfl

end Served

/-! An approval, between two calls that ask for the configuration. -/

section Approval

variable {wire} {lower : String → String} {decode : List UInt8 → Except String SandboxPolicy}
  {store after : Store Blob} {sandbox : Sandbox} {request : ChunkRequest} {response : PolicyVersionResponse}

/-- The sections that are fixed when the sandbox starts. -/
def staticSections (policy : Option SandboxPolicy) :
    Option FilesystemPolicy × Option LandlockPolicy × Option ProcessPolicy :=
  (policy.bind SandboxPolicy.filesystem, policy.bind SandboxPolicy.landlock, policy.bind SandboxPolicy.process)

theorem staticSections_mergeChunk (policy : SandboxPolicy) (chunk : DraftChunkRecord Blob) (rule : NetworkPolicyRule) :
    staticSections (some (mergeChunk lower policy chunk rule)) = staticSections (some policy) := by
  unfold mergeChunk
  split
  · split <;> rfl
  · rfl

theorem staticSections_same {first second : SandboxPolicy} (same : first.Same second) :
    staticSections (some first) = staticSections (some second) := by
  simp [staticSections, same.filesystem, same.landlock, same.process]

def KeepsStatic (wire : Wire Blob) (decode : List UInt8 → Except String SandboxPolicy) (store after : Store Blob)
    (sandboxId : String) : Prop :=
  ∀ before, store.served wire decode sandboxId = .ok before →
    ∃ now, after.served wire decode sandboxId = .ok now ∧ staticSections now = staticSections before

theorem approveReady_of_ok
    (succeeded : (handleApproveDraftChunk wire lower request).run Store.exec store = (.ok response, after)) :
    ∃ sandbox chunk rule policy, ApproveReady wire store request sandbox chunk rule policy := by
  by_contra unready
  obtain ⟨status, failed⟩ : Refuses (handleApproveDraftChunk wire lower request) store := approve_refused unready
  rw [failed] at succeeded
  cases succeeded

variable (decode) in
/-- After an approval the sections of the policy that was merged into are served. -/
theorem served_approved {chunk : DraftChunkRecord Blob} {rule : NetworkPolicyRule} {policy : SandboxPolicy}
    (ready : ApproveReady wire store request sandbox chunk rule policy)
    (succeeded : (handleApproveDraftChunk wire lower request).run Store.exec store = (.ok response, after)) :
    ∃ now, after.served wire decode sandbox.id = (store.effectiveSettings sandbox.id).map (fun _ => some now) ∧
      staticSections (some now) = staticSections (some policy) := by
  rw [run_approve ready] at succeeded
  cases succeeded
  obtain ⟨now, decoded, same⟩ := wire.policy_round_trip (mergeChunk lower policy chunk rule)
  refine ⟨now, ?_, (staticSections_same same).trans (staticSections_mergeChunk policy chunk rule)⟩
  have frame := store.appendRevision_frame sandbox.id (wire.encodePolicy (mergeChunk lower policy chunk rule))
    (deterministicPolicyHash wire (mergeChunk lower policy chunk rule))
  have sandboxes := congrArg Store.sandboxes frame
  have settings := congrArg Store.settings frame
  have present : ((store.withMerged wire lower sandbox.id chunk rule policy).updateDraftChunkStatus request.chunkId
      .approved (some store.nowMs)).getSandbox sandbox.id = some sandbox := by
    rw [← Store.getSandbox_of_name ready.resolved.sandboxFound]
    exact congrArg (fun rows => (rows.lookup sandbox.id).map SandboxRow.message) sandboxes
  have scopes : ∀ scope, ((store.withMerged wire lower sandbox.id chunk rule policy).updateDraftChunkStatus
      request.chunkId .approved (some store.nowMs)).getSettings scope = store.getSettings scope := by
    intro scope
    exact congrArg (fun rows => (rows.lookup scope).map SettingsRow.payload) settings
  rw [served_history present (store.getLatestPolicy_appendRevision sandbox.id _ _) decoded]
  · unfold Store.effectiveSettings Store.globalSettings
    rw [scopes, scopes]
  · unfold Store.globalPolicy
    rw [scopes]
    exact ready.unfrozen

/-- The settings decide for both calls alike whether they fail. -/
theorem keepsStatic_iff {settings : Except Status (StringMap EffectiveSetting)} {sandboxId : String}
    {earlier later : Option SandboxPolicy}
    (servedBefore : store.served wire decode sandboxId = settings.map fun _ => earlier)
    (servedAfter : after.served wire decode sandboxId = settings.map fun _ => later) :
    KeepsStatic wire decode store after sandboxId ↔
      staticSections later = staticSections earlier ∨ ∃ status, settings = .error status := by
  unfold KeepsStatic
  rw [servedBefore, servedAfter]
  cases settings with
  | error status =>
    refine iff_of_true ?_ (.inr ⟨status, rfl⟩)
    intro before served
    cases served
  | ok effective =>
    constructor
    · intro keeps
      obtain ⟨now, served, same⟩ := keeps earlier rfl
      cases served
      exact .inl same
    · intro condition
      rcases condition with same | ⟨status, failed⟩
      · intro before served
        cases served
        exact ⟨later, rfl, same⟩
      · cases failed

/-- An approval without a revision merges into the empty policy, and the sections of the record's policy
    are no longer served. -/
theorem approval_keeps_static_iff
    (succeeded : (handleApproveDraftChunk wire lower request).run Store.exec store = (.ok response, after))
    (found : store.getSandboxByName request.name = some sandbox) :
    KeepsStatic wire decode store after sandbox.id ↔
      (store.getLatestPolicy sandbox.id).isSome = true ∨
      staticSections sandbox.specPolicy = (none, none, none) ∨
      ∃ status, store.effectiveSettings sandbox.id = .error status := by
  obtain ⟨fetched, chunk, rule, policy, ready⟩ := approveReady_of_ok succeeded
  have named := ready.resolved.sandboxFound
  rw [found, Option.some.injEq] at named
  subst named
  have present := Store.getSandbox_of_name found
  obtain ⟨now, servedNow, sections⟩ := served_approved decode ready succeeded
  have merged := ready.mergeable.2
  unfold currentPolicy at merged
  cases latest : store.getLatestPolicy sandbox.id with
  | some record =>
    rw [latest] at merged
    have kept := keepsStatic_iff (served_history present latest merged ready.unfrozen) servedNow
    exact iff_of_true (kept.mpr (.inl sections)) (.inl rfl)
  | none =>
    rw [latest] at merged
    cases merged
    cases specified : sandbox.spec with
    | none =>
      refine iff_of_true ?_ (.inr (.inl ?_))
      · intro before served
        rw [served_unspecified present latest specified] at served
        cases served
      · rw [Sandbox.specPolicy, specified]
        rfl
    | some spec =>
      have specPolicy : sandbox.specPolicy = spec.policy := by rw [Sandbox.specPolicy, specified, Option.bind_some]
      rw [keepsStatic_iff (served_spec present latest specified ready.unfrozen) servedNow, sections, specPolicy]
      constructor
      · intro condition
        rcases condition with same | failed
        · exact .inr (.inl same.symm)
        · exact .inr (.inr failed)
      · intro condition
        rcases condition with recorded | empty | failed
        · cases recorded
        · exact .inl empty.symm
        · exact .inr failed

end Approval

section Example

def landlockPolicy : SandboxPolicy := { landlock := some { compatibility := "hard_requirement" } }

def landlockSandbox : Sandbox := { id := "sb", name := "beta", spec := some { policy := some landlockPolicy } }

/-- A sandbox with a policy of its own, of which no revision has been stored yet. -/
def unservedStore : Store Message :=
  (Store.exec (.putSandbox landlockSandbox) { chunks := Table.empty.insert gitChunk |>.getD Table.empty }).2

def approveGit : ChunkRequest := ⟨"beta", "c1"⟩

theorem unservedStore_ready : ApproveReady plainWire unservedStore approveGit landlockSandbox gitChunk gitRule {} :=
  ⟨⟨rfl, rfl, rfl, rfl⟩, rfl, by decide, rfl, rfl⟩

theorem unservedStore_approved : ¬ ∀ (store after : Store Message) (request : ChunkRequest)
    (response : PolicyVersionResponse) (sandbox : Sandbox),
    (handleApproveDraftChunk plainWire String.toLower request).run Store.exec store = (.ok response, after) →
    store.getSandboxByName request.name = some sandbox →
      KeepsStatic plainWire (fun _ => .ok {}) store after sandbox.id := by
  intro keeps
  have approved : (handleApproveDraftChunk plainWire String.toLower approveGit).run Store.exec unservedStore = _ :=
    run_approve unservedStore_ready
  obtain ⟨effective, settings⟩ : ∃ effective, unservedStore.effectiveSettings "sb" = .ok effective :=
    mergeEffectiveSettings_unset
  have before : unservedStore.served plainWire (fun _ => .ok {}) "sb" = .ok (some landlockPolicy) := by
    have present : unservedStore.getSandbox "sb" = some landlockSandbox := rfl
    rw [served_spec present rfl rfl rfl, settings]
    rfl
  obtain ⟨now, served, same⟩ := keeps _ _ _ _ _ approved rfl _ before
  obtain ⟨merged, servedNow, sections⟩ := served_approved (fun _ => .ok {}) unservedStore_ready approved
  rw [served, show landlockSandbox.id = "sb" from rfl, settings] at servedNow
  cases servedNow
  exact absurd (same.symm.trans sections) (by decide)

theorem unservedStore_keeps_iff :
    KeepsStatic plainWire (fun _ => .ok {}) unservedStore ((unservedStore.withMerged plainWire String.toLower "sb"
        gitChunk gitRule {}).updateDraftChunkStatus "c1" .approved (some 0)) "sb" ↔
      (unservedStore.getLatestPolicy "sb").isSome = true ∨
      staticSections landlockSandbox.specPolicy = (none, none, none) ∨
      ∃ status, unservedStore.effectiveSettings "sb" = .error status :=
  approval_keeps_static_iff (show (handleApproveDraftChunk plainWire String.toLower approveGit).run Store.exec
    unservedStore = _ from run_approve unservedStore_ready) rfl

end Example

end OpenShell.Server
