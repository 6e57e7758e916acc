import OpenShell.Policy.Validate
import OpenShell.Server.Drafts

namespace OpenShell.Server

open OpenShell.Policy Effects Effects.Fallible

variable {Blob : Type}

structure UpdateConfigRequest where
  name : String := ""
  policy : Option SandboxPolicy := none
  settingKey : String := ""
  settingValue : Option (Option SettingValue) := none
  deleteSetting : Bool := false
  global : Bool := false

structure SandboxPolicyUpdate where
  request : UpdateConfigRequest
  sandboxScoped : request.global = false
  carriesPolicy : request.policy.isSome = true

structure UpdateConfigResponse where
  version : UInt32 := 0
  policyHash : String := ""
  settingsRevision : UInt64 := 0
  deleted : Bool := false
deriving DecidableEq

def UpdateConfigRequest.key (request : UpdateConfigRequest) : String :=
  String.ofList (Text.trim request.settingKey.toList)

def validatePolicySafety (policy : SandboxPolicy) : Except Status Unit :=
  match validateSandboxPolicy policy with
  | none => .error ⟨.panicked, "byte index is not a char boundary"⟩
  | some [] => .ok ()
  | some violations => .error ⟨.invalidArgument,
      "policy contains unsafe content: " ++ "; ".intercalate (violations.map PolicyViolation.text)⟩

def validateFilesystemAdditive : Option FilesystemPolicy → Option FilesystemPolicy → Except Status Unit
  | none, _ => .ok ()
  | some _, none => .error ⟨.invalidArgument, "filesystem policy cannot be removed on a live sandbox"⟩
  | some base, some upd =>
    if base.includeWorkdir ≠ upd.includeWorkdir then
      .error ⟨.invalidArgument, "filesystem include_workdir cannot be changed on a live sandbox"⟩
    else
      match base.readOnly.find? (fun path => !upd.readOnly.contains path) with
      | some path => .error ⟨.invalidArgument,
          "filesystem read_only path '" ++ path ++ "' cannot be removed on a live sandbox"⟩
      | none =>
        match base.readWrite.find? (fun path => !upd.readWrite.contains path) with
        | some path => .error ⟨.invalidArgument,
            "filesystem read_write path '" ++ path ++ "' cannot be removed on a live sandbox"⟩
        | none => .ok ()

def validateStaticFieldsUnchanged (baseline new : SandboxPolicy) : Except Status Unit := do
  validateFilesystemAdditive baseline.filesystem new.filesystem
  if baseline.landlock ≠ new.landlock then
    .error ⟨.invalidArgument, "landlock policy cannot be changed on a live sandbox (applied at startup)"⟩
  if baseline.process ≠ new.process then
    .error ⟨.invalidArgument, "process policy cannot be changed on a live sandbox (applied at startup)"⟩
  pure ()

variable (wire : Wire Blob)

/-- The insert of the update path: one attempt, whose conflict is an error like any other. -/
def persistRevision (sandboxId : String) (latest : Option (PolicyRecord Blob)) (policy : SandboxPolicy)
    (problem : String) : Handler Blob Nat := do
  let nextVersion := latest.elim 1 (fun record => record.version + 1)
  let _ ← orInternal problem (← ask (.putPolicyRevision sandboxId nextVersion
    (wire.encodePolicy policy) (deterministicPolicyHash wire policy)))
  pure nextVersion

def recordGlobalPolicy (payload : Blob) : Handler Blob UInt64 := do
  let settings ← loadGlobalSettings
  bumpAndSave saveGlobalSettings settings
    (upsertSettingValue settings.settings policySettingKey (.bytes (Text.hexEncode (wire.bytes payload))))

def updateGlobalPolicy (request : UpdateConfigRequest) (submitted : SandboxPolicy) :
    Handler Blob UpdateConfigResponse := do
  ensure (!request.deleteSetting) ⟨.invalidArgument, "delete_setting cannot be combined with policy payload"⟩
  let policy := ensureSandboxProcessIdentity submitted
  lift (validatePolicySafety policy)
  let hash := deterministicPolicyHash wire policy
  let latest ← orInternal "fetch latest global policy failed"
    (← ask (.getLatestPolicy globalPolicySandboxId))
  match latest.filter (fun current => current.policyHash = hash && current.status = .loaded) with
  | some current =>
    let revision ← recordGlobalPolicy wire (wire.encodePolicy policy)
    pure ⟨versionNumber current.version, hash, revision, false⟩
  | none =>
    let nextVersion ← persistRevision wire globalPolicySandboxId latest policy
      "persist global policy revision failed"
    let clock ← ask .currentTimeMs
    let nowMs := match clock with
      | Except.ok reading => reading
      | Except.error _ => 0
    let _ ← ask (.updatePolicyStatus globalPolicySandboxId nextVersion .loaded none (some nowMs))
    let _ ← ask (.supersedeOlderPolicies globalPolicySandboxId nextVersion)
    let revision ← recordGlobalPolicy wire (wire.encodePolicy policy)
    pure ⟨versionNumber nextVersion, hash, revision, false⟩

def retireGlobalPolicy : Handler Blob Unit := do
  let latest ← ask (.getLatestPolicy globalPolicySandboxId)
  match latest with
  | Except.ok (some record) =>
    let _ ← ask (.supersedeOlderPolicies globalPolicySandboxId (record.version + 1))
    pure ()
  | _ => pure ()

def requestedSetting (request : UpdateConfigRequest) : Except Status StoredSettingValue :=
  match request.settingValue with
  | none => .error ⟨.invalidArgument, "setting_value is required"⟩
  | some value => protoSettingToStored request.key value

def updateGlobalSetting (request : UpdateConfigRequest) : Handler Blob UpdateConfigResponse := do
  ensure (request.key ≠ policySettingKey || request.deleteSetting)
    ⟨.invalidArgument, "reserved key 'policy' must be set via the policy field"⟩
  if request.key ≠ policySettingKey then
    let _ ← lift (validateRegisteredSettingKey request.key)
  let settings ← loadGlobalSettings
  if request.deleteSetting then
    let removed := (settings.settings.lookup request.key).isSome
    if removed && request.key = policySettingKey then
      retireGlobalPolicy
    let revision ← bumpAndSave saveGlobalSettings settings
      (if removed then some (settings.settings.erase request.key) else none)
    pure ⟨0, "", revision, removed⟩
  else
    let stored ← lift (requestedSetting request)
    let revision ← bumpAndSave saveGlobalSettings settings
      (upsertSettingValue settings.settings request.key stored)
    pure ⟨0, "", revision, false⟩

def updateSandboxSetting (request : UpdateConfigRequest) (sandbox : Sandbox) :
    Handler Blob UpdateConfigResponse := do
  ensure (request.key ≠ policySettingKey)
    ⟨.invalidArgument, "reserved key 'policy' must be set via policy commands"⟩
  let globalSettings ← loadGlobalSettings
  let globallyManaged := (globalSettings.settings.lookup request.key).isSome
  let save := saveSandboxSettings sandbox.id sandbox.name
  if request.deleteSetting then
    ensure (!globallyManaged) ⟨.failedPrecondition, "setting '" ++ request.key ++
      "' is managed globally; delete the global setting first"⟩
    let settings ← loadSandboxSettings sandbox.id
    let removed := (settings.settings.lookup request.key).isSome
    let revision ← bumpAndSave save settings
      (if removed then some (settings.settings.erase request.key) else none)
    pure ⟨0, "", revision, removed⟩
  else
    ensure (!globallyManaged) ⟨.failedPrecondition, "setting '" ++ request.key ++
      "' is managed globally; delete the global setting before sandbox update"⟩
    let stored ← lift (requestedSetting request)
    let settings ← loadSandboxSettings sandbox.id
    let revision ← bumpAndSave save settings
      (upsertSettingValue settings.settings request.key stored)
    pure ⟨0, "", revision, false⟩

def checkBaseline (sandbox : Sandbox) (spec : SandboxSpec) (policy : SandboxPolicy) :
    Handler Blob Unit :=
  match spec.policy with
  | some baseline => do
    lift (validateStaticFieldsUnchanged baseline policy)
    lift (validatePolicySafety policy)
  | none => do
    orInternal "backfill spec.policy failed"
      (← ask (.putSandbox { sandbox with spec := some { spec with policy := some policy } }))

def writeUpdate (sandboxId : String) (policy : SandboxPolicy) : Handler Blob UpdateConfigResponse := do
  let latest ← orInternal "fetch latest policy failed" (← ask (.getLatestPolicy sandboxId))
  let hash := deterministicPolicyHash wire policy
  match latest.filter (fun current => current.policyHash = hash) with
  | some current => pure ⟨versionNumber current.version, hash, 0, false⟩
  | none =>
    let nextVersion ← persistRevision wire sandboxId latest policy "persist policy revision failed"
    let _ ← ask (.supersedeOlderPolicies sandboxId nextVersion)
    pure ⟨versionNumber nextVersion, hash, 0, false⟩

def updateSandboxPolicy (sandbox : Sandbox) (submitted : Option SandboxPolicy) :
    Handler Blob UpdateConfigResponse := do
  let given ← orElse ⟨.invalidArgument, "policy is required"⟩ submitted
  let globalSettings ← loadGlobalSettings
  ensure (globalSettings.settings.lookup policySettingKey).isNone ⟨.failedPrecondition,
    "policy is managed globally; delete global policy before sandbox policy update"⟩
  let spec ← orElse ⟨.internal, "sandbox has no spec"⟩ sandbox.spec
  let policy := ensureSandboxProcessIdentity given
  checkBaseline sandbox spec policy
  writeUpdate wire sandbox.id policy

def handleUpdateConfig (request : UpdateConfigRequest) : Handler Blob UpdateConfigResponse := do
  let hasSetting := !request.key.isEmpty
  ensure (!(request.policy.isSome && hasSetting))
    ⟨.invalidArgument, "policy and setting_key cannot be set in the same request"⟩
  ensure (request.policy.isSome || hasSetting)
    ⟨.invalidArgument, "either policy or setting_key must be provided"⟩
  if request.global then
    match request.policy with
    | some policy => updateGlobalPolicy wire request policy
    | none => updateGlobalSetting request
  else
    ensure (!request.name.isEmpty) ⟨.invalidArgument, "name is required for sandbox-scoped updates"⟩
    let sandbox ← fetchSandbox request.name
    if hasSetting then updateSandboxSetting request sandbox
    else updateSandboxPolicy wire sandbox request.policy

end OpenShell.Server
