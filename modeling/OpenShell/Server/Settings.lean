import OpenShell.Server.PolicyWrites

namespace OpenShell.Server

open OpenShell.Policy Effects Effects.Fallible

variable {Blob : Type}

def policySettingKey : String := "policy"

def globalPolicySandboxId : String := "__global__"

def globalSettingsName : String := "global"

inductive SettingValueKind where
  | string | int | bool
deriving DecidableEq

def SettingValueKind.asStr : SettingValueKind → String
  | .string => "string"
  | .int => "int"
  | .bool => "bool"

structure RegisteredSetting where
  key : String
  kind : SettingValueKind

/-- The keys of a production build; `policy` is reserved and not among them. -/
def registeredSettings : List RegisteredSetting := [⟨"ocsf_json_enabled", .bool⟩]

def settingForKey (key : String) : Option RegisteredSetting :=
  registeredSettings.find? (fun entry => entry.key = key)

def registeredKeysCsv : String := ", ".intercalate (registeredSettings.map RegisteredSetting.key)

inductive SettingValue where
  | stringValue (value : String)
  | boolValue (value : Bool)
  | intValue (value : Int)
  | bytesValue (value : List UInt8)
deriving DecidableEq

def validateRegisteredSettingKey (key : String) : Except Status SettingValueKind :=
  match settingForKey key with
  | some entry => .ok entry.kind
  | none => .error ⟨.invalidArgument,
      "unknown setting key '" ++ key ++ "'. Allowed keys: " ++ registeredKeysCsv⟩

def protoSettingToStored (key : String) (value : Option SettingValue) : Except Status StoredSettingValue := do
  let expected ← validateRegisteredSettingKey key
  match expected, value with
  | _, none => .error ⟨.invalidArgument, "setting_value.value is required"⟩
  | .string, some (.stringValue v) => .ok (.string v)
  | .bool, some (.boolValue v) => .ok (.bool v)
  | .int, some (.intValue v) => .ok (.int v)
  | _, some (.bytesValue _) => .error ⟨.invalidArgument,
      "setting '" ++ key ++ "' expects " ++ expected.asStr ++
        " value; bytes are not supported for this key"⟩
  | _, some _ => .error ⟨.invalidArgument,
      "setting '" ++ key ++ "' expects " ++ expected.asStr ++ " value"⟩

def upsertSettingValue (settings : StringMap StoredSettingValue) (key : String)
    (value : StoredSettingValue) : Option (StringMap StoredSettingValue) :=
  if settings.lookup key = some value then none else some (settings.insert key value)

def loadSettingsRecord (scope : SettingsScope) : Handler Blob StoredSettings := do
  let record ← orInternal "fetch settings failed" (← ask (.getSettings scope))
  pure (record.getD {})

def loadGlobalSettings : Handler Blob StoredSettings := loadSettingsRecord .global

def loadSandboxSettings (sandboxId : String) : Handler Blob StoredSettings :=
  loadSettingsRecord (.sandbox sandboxId)

def saveSettingsRecord (scope : SettingsScope) (name : String) (settings : StoredSettings) :
    Handler Blob Unit := do
  orInternal "persist settings failed" (← ask (.putSettings scope name settings))

def saveGlobalSettings (settings : StoredSettings) : Handler Blob Unit :=
  saveSettingsRecord .global globalSettingsName settings

def saveSandboxSettings (sandboxId sandboxName : String) (settings : StoredSettings) :
    Handler Blob Unit :=
  saveSettingsRecord (.sandbox sandboxId) sandboxName settings

/-- Stores the changed map under the next revision; without a change nothing is written. -/
def bumpAndSave (save : StoredSettings → Handler Blob Unit) (current : StoredSettings) :
    Option (StringMap StoredSettingValue) → Handler Blob UInt64
  | some changed => do
    save { revision := current.revision + 1, settings := changed }
    pure (current.revision + 1)
  | none => pure current.revision

def Store.globalPolicy (store : Store Blob) : Bool :=
  (((store.getSettings .global).getD {}).settings.lookup policySettingKey).isSome

def requireNoGlobalPolicy : Handler Blob Unit := do
  let global ← loadGlobalSettings
  ensure (global.settings.lookup policySettingKey).isNone ⟨.failedPrecondition,
    "cannot approve rules while a global policy is active; " ++
      "delete the global policy to manage per-sandbox rules"⟩

@[simp] theorem run_loadSettingsRecord_bind {β : Type} (scope : SettingsScope)
    (next : StoredSettings → Handler Blob β) (store : Store Blob) :
    (loadSettingsRecord scope >>= next).run Store.exec store =
      (next ((store.getSettings scope).getD {})).run Store.exec store := by
  have load : (loadSettingsRecord scope).run Store.exec store =
      (.ok ((store.getSettings scope).getD {}), store) := rfl
  exact run_bind_of_ok load next

theorem run_requireNoGlobalPolicy_bind {β : Type} (next : Unit → Handler Blob β) (store : Store Blob) :
    (requireNoGlobalPolicy >>= next).run Store.exec store =
      if store.globalPolicy then
        (.error ⟨.failedPrecondition, "cannot approve rules while a global policy is active; " ++
          "delete the global policy to manage per-sandbox rules"⟩, store)
      else (next ()).run Store.exec store := by
  have guarded : (requireNoGlobalPolicy : Handler Blob Unit).run Store.exec store =
      if store.globalPolicy then
        (.error ⟨.failedPrecondition, "cannot approve rules while a global policy is active; " ++
          "delete the global policy to manage per-sandbox rules"⟩, store)
      else (.ok (), store) := by
    unfold requireNoGlobalPolicy loadGlobalSettings Store.globalPolicy
    rw [run_loadSettingsRecord_bind]
    cases (((store.getSettings .global).getD {}).settings.lookup policySettingKey) <;> rfl
  by_cases active : store.globalPolicy = true
  · rw [if_pos active] at guarded ⊢
    exact run_bind_of_error guarded next
  · rw [if_neg active] at guarded ⊢
    exact run_bind_of_ok guarded next

end OpenShell.Server
