import OpenShell.Lib.Machine
import OpenShell.Server.PolicyStatus

namespace OpenShell.Server

open OpenShell.Policy Effects Effects.Fallible Relational

variable {Blob : Type}

/-! The global policy is kept twice: as a setting, and as the latest revision under a reserved id. -/

/-- `decode` reads a message from its bytes. -/
def decodePolicyFromGlobalSettings (decode : List UInt8 → Except String SandboxPolicy) (global : StoredSettings) :
    Except Status (Option SandboxPolicy) :=
  match global.settings.lookup policySettingKey with
  | none => .ok none
  | some (.bytes encoded) =>
    match Text.hexDecode encoded.toList with
    | .error problem => .error ⟨.internal, "global policy decode failed: " ++ problem⟩
    | .ok raw =>
      match decode raw with
      | .error problem => .error ⟨.internal, "global policy protobuf decode failed: " ++ problem⟩
      | .ok policy => .ok (some policy)
  | some _ => .error ⟨.internal, "global policy setting has invalid value type; expected bytes"⟩

structure GlobalUpdate where
  request : UpdateConfigRequest
  globalScoped : request.global = true

/-- A sandbox has an id of its own, which is not the reserved one. -/
structure SandboxReport where
  request : ReportPolicyStatusRequest
  real : request.sandboxId ≠ globalPolicySandboxId

inductive GlobalCall where
  | update (submitted : GlobalUpdate)
  | report (received : SandboxReport)

namespace GlobalCall

def outcome (wire : Wire Blob) (store : Store Blob) : GlobalCall → Store Blob
  | update submitted => ((handleUpdateConfig wire submitted.request).run Store.exec store).2
  | report received => ((handleReportPolicyStatus received.request).run Store.exec store).2

/-- The policy as it is stored, with the identity of its process filled in. -/
def policy : GlobalCall → Option SandboxPolicy
  | update submitted => submitted.request.policy.map ensureSandboxProcessIdentity
  | report _ => none

end GlobalCall

namespace Store

def globalSettings (store : Store Blob) : StoredSettings := (store.getSettings .global).getD {}

/-- Nothing global has been set yet. -/
structure NoGlobal (store : Store Blob) : Prop where
  settings : store.globalSettings.settings.lookup policySettingKey = none
  revisions : ∀ record ∈ store.policies, record.sandboxId ≠ globalPolicySandboxId

end Store

section Agreement

variable (wire : Wire Blob) (decode : List UInt8 → Except String SandboxPolicy) (store : Store Blob)

def SettingsHold (policy : SandboxPolicy) : Prop :=
  ∃ decoded, decodePolicyFromGlobalSettings decode store.globalSettings = .ok (some decoded) ∧ decoded.Same policy

def HistoryHolds (policy : SandboxPolicy) : Prop :=
  ∃ latest decoded, store.getLatestPolicy globalPolicySandboxId = some latest ∧ latest.status = .loaded ∧
    wire.decodePolicy latest.policyPayload = .ok decoded ∧ decoded.Same policy

/-- The setting and the history tell the same policy, and only the latest revision may be in force. -/
structure GlobalAgrees : Prop where
  same : ∀ policy, SettingsHold decode store policy ↔ HistoryHolds wire store policy
  older : ∀ record ∈ store.policies, record.sandboxId = globalPolicySandboxId →
    record.version < store.latestVersion globalPolicySandboxId → record.status = .superseded

/-- The decoder reads a stored text as it reads a payload, and different policies have different hashes. -/
structure Identifies (policies : List SandboxPolicy) : Prop where
  decodes : ∀ policy ∈ policies,
    decode (wire.bytes (wire.encodePolicy policy)) = wire.decodePolicy (wire.encodePolicy policy)
  hashes : ∀ first ∈ policies, ∀ second ∈ policies,
    deterministicPolicyHash wire first = deterministicPolicyHash wire second → first.Same second

def settingOf (policy : SandboxPolicy) : StoredSettingValue :=
  .bytes (Text.hexEncode (wire.bytes (wire.encodePolicy policy)))

end Agreement

/-- What the handlers keep between requests. -/
structure Kept (wire : Wire Blob) (policies : List SandboxPolicy) (store : Store Blob) : Prop where
  older : ∀ record ∈ store.policies, record.sandboxId = globalPolicySandboxId →
    record.version < store.latestVersion globalPolicySandboxId → record.status = .superseded
  newest : ∀ latest, store.getLatestPolicy globalPolicySandboxId = some latest →
    latest.status = .loaded ∨ latest.status = .superseded
  active : ∀ value, store.globalSettings.settings.lookup policySettingKey = some value →
    ∃ latest, store.getLatestPolicy globalPolicySandboxId = some latest ∧ latest.status = .loaded ∧
      ∃ stored ∈ policies, ∃ recorded ∈ policies, value = settingOf wire stored ∧
        latest.policyPayload = wire.encodePolicy recorded ∧
        latest.policyHash = deterministicPolicyHash wire recorded ∧ stored.Same recorded
  inactive : store.globalSettings.settings.lookup policySettingKey = none →
    ∀ latest, store.getLatestPolicy globalPolicySandboxId = some latest → latest.status ≠ .loaded

section Keeping

variable {wire : Wire Blob} {decode : List UInt8 → Except String SandboxPolicy} {policies : List SandboxPolicy}
  {store after : Store Blob}

theorem decode_settingOf {global : StoredSettings} {policy decoded : SandboxPolicy}
    (setting : global.settings.lookup policySettingKey = some (settingOf wire policy))
    (reads : decode (wire.bytes (wire.encodePolicy policy)) = .ok decoded) :
    decodePolicyFromGlobalSettings decode global = .ok (some decoded) := by
  unfold decodePolicyFromGlobalSettings
  rw [setting]
  simp only [settingOf, Text.hexDecode_hexEncode, reads]

theorem decode_none {global : StoredSettings} (unset : global.settings.lookup policySettingKey = none) :
    decodePolicyFromGlobalSettings decode global = .ok none := by
  unfold decodePolicyFromGlobalSettings
  rw [unset]

/-- What is kept makes the two copies tell the same. -/
theorem Kept.agrees (kept : Kept wire policies store) (identifies : Identifies wire decode policies) :
    GlobalAgrees wire decode store := by
  refine ⟨?_, kept.older⟩
  intro policy
  cases setting : store.globalSettings.settings.lookup policySettingKey with
  | none =>
    constructor
    · rintro ⟨decoded, read, _⟩
      rw [decode_none setting] at read
      cases read
    · rintro ⟨latest, _, isLatest, loaded, _⟩
      exact absurd loaded (kept.inactive setting latest isLatest)
  | some value =>
    obtain ⟨latest, isLatest, loaded, stored, isStored, recorded, isRecorded, isValue, isPayload, _, same⟩ :=
      kept.active value setting
    subst isValue
    obtain ⟨fromSetting, readSetting, sameSetting⟩ := wire.policy_round_trip stored
    obtain ⟨fromHistory, readHistory, sameHistory⟩ := wire.policy_round_trip recorded
    have settings := decode_settingOf setting ((identifies.decodes stored isStored).trans readSetting)
    have both : fromSetting.Same fromHistory := (sameSetting.trans same).trans sameHistory.symm
    constructor
    · rintro ⟨decoded, read, holds⟩
      rw [settings] at read
      cases read
      exact ⟨latest, fromHistory, isLatest, loaded, by rw [isPayload]; exact readHistory, both.symm.trans holds⟩
    · rintro ⟨other, decoded, isOther, _, read, holds⟩
      rw [isLatest] at isOther
      cases isOther
      rw [isPayload, readHistory] at read
      cases read
      exact ⟨fromSetting, settings, both.trans holds⟩

theorem kept_of_noGlobal (fresh : store.NoGlobal) : Kept wire policies store := by
  have unwritten : ∀ latest, store.getLatestPolicy globalPolicySandboxId ≠ some latest := by
    intro latest isLatest
    obtain ⟨member, chosen, _⟩ := Table.latest_some isLatest
    exact fresh.revisions latest member (by simpa using chosen)
  constructor
  · intro record member owner
    exact absurd owner (fresh.revisions record member)
  · intro latest isLatest
    exact absurd isLatest (unwritten latest)
  · intro value setting
    rw [fresh.settings] at setting
    cases setting
  · intro _ latest isLatest
    exact absurd isLatest (unwritten latest)

/-- A statement about something else leaves both copies as they are. -/
structure SameGlobal (before after : Store Blob) : Prop where
  settings : after.globalSettings = before.globalSettings
  latest : after.getLatestPolicy globalPolicySandboxId = before.getLatestPolicy globalPolicySandboxId
  records : ∀ record ∈ after.policies, record.sandboxId = globalPolicySandboxId → record ∈ before.policies

theorem Kept.frame (kept : Kept wire policies store) (same : SameGlobal store after) : Kept wire policies after := by
  have version : after.latestVersion globalPolicySandboxId = store.latestVersion globalPolicySandboxId := by
    unfold Store.latestVersion
    rw [same.latest]
  constructor
  · intro record member owner older
    rw [version] at older
    exact kept.older record (same.records record member owner) owner older
  · rw [same.latest]
    exact kept.newest
  · rw [same.latest, same.settings]
    exact kept.active
  · rw [same.latest, same.settings]
    exact kept.inactive

end Keeping

/-! Reports. -/

section Reports

variable {store : Store Blob}

theorem Store.getLatestPolicy_updateStatus (store : Store Blob) (owner : String) (version : Nat) (status : PolicyStatus)
    (loadError : Option String) (loadedAtMs : Option Int) (sandboxId : String) :
    (store.updatePolicyStatus owner version status loadError loadedAtMs).getLatestPolicy sandboxId =
      (store.getLatestPolicy sandboxId).map fun record =>
        if decide (record.sandboxId = owner ∧ record.version = version) then record.withStatus status loadError loadedAtMs
        else record := by
  refine Table.latest_update (fun record _ => record.withStatus_key status loadError loadedAtMs) ?_ ?_
  · intro record
    split <;> rfl
  · intro record
    split <;> rfl

theorem map_latest_eq_self {sandboxId : String} {change : PolicyRecord Blob → PolicyRecord Blob}
    (same : ∀ record, record.sandboxId = sandboxId → change record = record) :
    (store.getLatestPolicy sandboxId).map change = store.getLatestPolicy sandboxId := by
  cases isLatest : store.getLatestPolicy sandboxId with
  | none => rfl
  | some latest =>
    obtain ⟨_, chosen, _⟩ := Table.latest_some isLatest
    rw [Option.map_some, same latest (by simpa using chosen)]

theorem sameGlobal_updateStatus {owner : String} (foreign : owner ≠ globalPolicySandboxId) (version : Nat)
    (status : PolicyStatus) (loadError : Option String) (loadedAtMs : Option Int) :
    SameGlobal store (store.updatePolicyStatus owner version status loadError loadedAtMs) := by
  refine ⟨rfl, ?_, ?_⟩
  · rw [Store.getLatestPolicy_updateStatus]
    apply map_latest_eq_self
    intro record global
    have kept : ¬ (record.sandboxId = owner ∧ record.version = version) := fun named => foreign (named.1.symm.trans global)
    simp [kept]
  · intro record member global
    obtain ⟨old, oldMember, same⟩ := Store.mem_updatePolicyStatus.mp member
    split at same
    · rename_i named
      subst same
      exact absurd (named.1.symm.trans global) foreign
    · rw [same]
      exact oldMember

theorem sameGlobal_supersede {owner : String} (foreign : owner ≠ globalPolicySandboxId) (bound : Nat) :
    SameGlobal store (store.supersedeOlderPolicies owner bound) := by
  have kept : ∀ record : PolicyRecord Blob, record.sandboxId = globalPolicySandboxId →
      Store.supersedeRow owner bound record = record := by
    intro record global
    have other : record.sandboxId ≠ owner := fun same => foreign (same.symm.trans global)
    have unselected : Store.superseded owner bound record = false := by simp [Store.superseded, other]
    simp [Store.supersedeRow, unselected]
  refine ⟨rfl, ?_, ?_⟩
  · rw [Store.getLatestPolicy_supersede]
    exact map_latest_eq_self kept
  · intro record member global
    obtain ⟨old, oldMember, same⟩ := Store.mem_supersedeOlderPolicies.mp member
    rw [same, Store.supersedeRow_sandboxId] at global
    rw [same, kept old global]
    exact oldMember

theorem sameGlobal_putSandbox {after : Store Blob} {message : Sandbox} (written : store.putSandbox message = .ok after) :
    SameGlobal store after := by
  have policies := (Store.putSandbox_rows written).1
  have settings : after.settings = store.settings := by
    unfold Store.putSandbox at written
    split at written
    · cases written
      rfl
    · split at written
      · cases written
      · split at written
        · cases written
          rfl
        · cases written
  refine ⟨?_, ?_, ?_⟩
  · unfold Store.globalSettings Store.getSettings
    rw [settings]
  · unfold Store.getLatestPolicy
    rw [policies]
  · intro record member _
    rw [policies] at member
    exact member

/-- The statements of a report on a sandbox. -/
def StoreOp.Foreign : StoreOp Blob → Prop
  | .updatePolicyStatus owner _ _ _ _ => owner ≠ globalPolicySandboxId
  | .supersedeOlderPolicies owner _ => owner ≠ globalPolicySandboxId
  | .getSandbox _ => True
  | .putSandbox _ => True
  | .currentTimeMs => True
  | _ => False

theorem sameGlobal_exec {op : StoreOp Blob} (foreign : op.Foreign) : SameGlobal store (Store.exec op store).2 := by
  cases op with
  | updatePolicyStatus owner version status loadError loadedAtMs => exact sameGlobal_updateStatus foreign _ _ _ _
  | supersedeOlderPolicies owner bound => exact sameGlobal_supersede foreign bound
  | getSandbox id => exact ⟨rfl, rfl, fun _ member _ => member⟩
  | currentTimeMs => exact ⟨rfl, rfl, fun _ member _ => member⟩
  | putSandbox message =>
    simp only [Store.exec, Store.write]
    cases written : store.putSandbox message with
    | ok after => exact sameGlobal_putSandbox written
    | error text => exact ⟨rfl, rfl, fun _ member _ => member⟩
  | _ => cases foreign

theorem sends_report {request : ReportPolicyStatusRequest} (real : request.sandboxId ≠ globalPolicySandboxId) :
    Sends StoreOp.Foreign (handleReportPolicyStatus request : Handler Blob Unit) := by
  have records : Sends StoreOp.Foreign (recordLoaded request.sandboxId request.version : Handler Blob Unit) := by
    apply Sends.bind (Sends.ask real)
    intro _
    apply Sends.bind (Sends.ask trivial)
    intro found
    split
    · exact Sends.bind (Sends.ask trivial) fun _ => Sends.pure _
    · exact Sends.pure _
  apply Sends.bind (Sends.guard _ _)
  intro _
  apply Sends.bind (Sends.guard _ _)
  intro _
  apply Sends.bind (Sends.orElse _ _)
  intro status
  have times : Sends StoreOp.Foreign (loadTime status : Handler Blob (Option Int)) := by
    unfold loadTime
    split
    · exact Sends.bind (Sends.decisionTime trivial) fun _ => Sends.pure _
    · exact Sends.pure _
  apply Sends.bind times
  intro loadedAtMs
  apply Sends.bind (Sends.ask real)
  intro answer
  apply Sends.bind (Sends.orInternal _ _)
  intro updated
  apply Sends.bind (Sends.guard _ _)
  intro _
  split
  · exact records
  · exact Sends.pure _

theorem kept_report {wire : Wire Blob} {policies : List SandboxPolicy} (kept : Kept wire policies store)
    {request : ReportPolicyStatusRequest} (real : request.sandboxId ≠ globalPolicySandboxId) :
    Leaves (Kept wire policies) (handleReportPolicyStatus request) store :=
  Requests.run_preserves (I := storeInterface Blob) Store.exec (sends_report real).requests
    (fun _ _ foreign held => Kept.frame held (sameGlobal_exec foreign)) kept

end Reports

/-! Writing the settings. -/

section Settings

variable {wire : Wire Blob} {policies : List SandboxPolicy} {store : Store Blob}

/-- There is one global record, so nothing stands in the way of writing it. -/
theorem putSettings_global (store : Store Blob) (payload : StoredSettings) :
    ∃ after, store.putSettings .global globalSettingsName payload = .ok after ∧ after.policies = store.policies ∧
      after.globalSettings = payload := by
  have written : ∃ after, store.putSettings .global globalSettingsName payload = .ok after ∧
      after.globalSettings = payload := by
    unfold Store.putSettings
    cases found : store.settings.lookup .global with
    | some row =>
      refine ⟨_, rfl, ?_⟩
      have selected := (Table.lookup_some.mp found).2
      simp only [Store.globalSettings, Store.getSettings, Table.lookup_update, found, Option.map_some]
      simp [selected, SettingsRow.withPayload]
    | none =>
      have absent := Table.lookup_none.mp found
      have free : (store.settings.rows.any fun row => row.scope.sameType .global && decide (row.name = globalSettingsName)) =
          false := by
        rw [List.any_eq_false]
        intro row member taken
        have other := absent row member
        cases scope : row.scope with
        | global => exact other scope
        | sandbox id => simp [scope, SettingsScope.sameType] at taken
      simp only [free, Bool.false_eq_true, if_false]
      cases inserted : store.settings.insert ⟨.global, globalSettingsName, payload⟩ with
      | none =>
        obtain ⟨row, member, same⟩ := Table.insert_none.mp inserted
        exact absurd same (absent row member)
      | some settings =>
        refine ⟨_, rfl, ?_⟩
        have rows := (Table.insert_some inserted).1
        have held : settings.lookup .global = some ⟨.global, globalSettingsName, payload⟩ := by
          apply Table.lookup_some.mpr
          refine ⟨?_, rfl⟩
          rw [Table.mem_rows, rows]
          exact List.mem_append_right _ (List.mem_singleton_self _)
        simp only [Store.globalSettings, Store.getSettings, held, Option.map_some, Option.getD_some]
  obtain ⟨after, isAfter, settings⟩ := written
  exact ⟨after, isAfter, (Store.putSettings_frame isAfter).1, settings⟩

theorem run_bumpAndSave (store : Store Blob) (changed : Option (StringMap StoredSettingValue)) :
    ∃ revision after,
      (bumpAndSave saveGlobalSettings store.globalSettings changed).run Store.exec store = (.ok revision, after) ∧
      after.policies = store.policies ∧ after.globalSettings.settings = changed.getD store.globalSettings.settings := by
  cases changed with
  | none => exact ⟨_, store, rfl, rfl, rfl⟩
  | some settings =>
    obtain ⟨after, written, policies, saved⟩ :=
      putSettings_global store { revision := store.globalSettings.revision + 1, settings := settings }
    refine ⟨store.globalSettings.revision + 1, after, ?_, policies, by rw [saved]; rfl⟩
    have ran : (saveGlobalSettings { revision := store.globalSettings.revision + 1, settings := settings }).run
        Store.exec store = (.ok (), after) := by
      unfold saveGlobalSettings saveSettingsRecord
      rw [run_ask_bind]
      simp only [Store.exec, written, Store.write]
      rfl
    exact run_bind_of_ok ran _

theorem run_recordGlobalPolicy (wire : Wire Blob) (store : Store Blob) (policy : SandboxPolicy) :
    ∃ revision after,
      (recordGlobalPolicy wire (wire.encodePolicy policy)).run Store.exec store = (.ok revision, after) ∧
      after.policies = store.policies ∧
      after.globalSettings.settings.lookup policySettingKey = some (settingOf wire policy) := by
  obtain ⟨revision, after, ran, policies, settings⟩ := run_bumpAndSave store
    (upsertSettingValue store.globalSettings.settings policySettingKey (settingOf wire policy))
  refine ⟨revision, after, ?_, policies, ?_⟩
  · unfold recordGlobalPolicy loadGlobalSettings
    rw [run_loadSettingsRecord_bind]
    exact ran
  · rw [settings]
    unfold upsertSettingValue
    split
    · rename_i present
      exact present
    · exact AList.lookup_insert _

end Settings

/-! What the updates do to both copies. -/

section Updates

variable {wire : Wire Blob} {policies : List SandboxPolicy} {store after : Store Blob}

theorem Kept.status (kept : Kept wire policies store) {record : PolicyRecord Blob} (member : record ∈ store.policies)
    (owner : record.sandboxId = globalPolicySandboxId) : record.status = .loaded ∨ record.status = .superseded := by
  have bound := Store.version_le_latest member
  rw [owner] at bound
  by_cases older : record.version < store.latestVersion globalPolicySandboxId
  · exact Or.inr (kept.older record member owner older)
  · cases isLatest : store.getLatestPolicy globalPolicySandboxId with
    | none =>
      have unselected := Table.latest_none.mp isLatest record member
      simp [owner] at unselected
    | some latest =>
      obtain ⟨latestMember, chosen, _⟩ := Table.latest_some isLatest
      have version : store.latestVersion globalPolicySandboxId = latest.version := by
        simp only [Store.latestVersion, isLatest, Option.elim_some]
      have same : record = latest := by
        apply Table.eq_of_key member latestMember
        unfold PolicyRecord.key
        rw [owner, show latest.sandboxId = globalPolicySandboxId by simpa using chosen]
        congr 1
        omega
      rw [same]
      exact kept.newest latest isLatest

theorem supersedeRow_status {owner : String} {bound : Nat} {record : PolicyRecord Blob} (own : record.sandboxId = owner)
    (older : record.version < bound) (known : record.status = .loaded ∨ record.status = .superseded) :
    (Store.supersedeRow owner bound record).status = .superseded := by
  unfold Store.supersedeRow
  rcases known with loaded | superseded
  · have selected : Store.superseded owner bound record = true := by simp [Store.superseded, own, older, loaded]
    rw [if_pos selected]
    rfl
  · split
    · rfl
    · exact superseded

/-- The setting changes, the history does not. -/
theorem Kept.setting (kept : Kept wire policies store) (history : after.policies = store.policies)
    (active : ∀ value, after.globalSettings.settings.lookup policySettingKey = some value →
      ∃ latest, store.getLatestPolicy globalPolicySandboxId = some latest ∧ latest.status = .loaded ∧
        ∃ stored ∈ policies, ∃ recorded ∈ policies, value = settingOf wire stored ∧
          latest.policyPayload = wire.encodePolicy recorded ∧
          latest.policyHash = deterministicPolicyHash wire recorded ∧ stored.Same recorded)
    (inactive : after.globalSettings.settings.lookup policySettingKey = none →
      ∀ latest, store.getLatestPolicy globalPolicySandboxId = some latest → latest.status ≠ .loaded) :
    Kept wire policies after := by
  have latest : after.getLatestPolicy globalPolicySandboxId = store.getLatestPolicy globalPolicySandboxId := by
    unfold Store.getLatestPolicy
    rw [history]
  have version : after.latestVersion globalPolicySandboxId = store.latestVersion globalPolicySandboxId := by
    unfold Store.latestVersion
    rw [latest]
  constructor
  · rw [history, version]
    exact kept.older
  · rw [latest]
    exact kept.newest
  · rw [latest]
    exact active
  · rw [latest]
    exact inactive

theorem Kept.otherSetting (kept : Kept wire policies store) (history : after.policies = store.policies)
    (same : after.globalSettings.settings.lookup policySettingKey =
      store.globalSettings.settings.lookup policySettingKey) : Kept wire policies after := by
  apply kept.setting history
  · rw [same]
    exact kept.active
  · rw [same]
    exact kept.inactive

/-- A policy that the latest revision already has in force is stored again under the setting only. -/
theorem Kept.again (kept : Kept wire policies store)
    (distinct : ∀ first ∈ policies, ∀ second ∈ policies,
      deterministicPolicyHash wire first = deterministicPolicyHash wire second → first.Same second)
    {policy : SandboxPolicy} (member : policy ∈ policies) {current : PolicyRecord Blob}
    (isLatest : store.getLatestPolicy globalPolicySandboxId = some current)
    (hash : current.policyHash = deterministicPolicyHash wire policy) (loaded : current.status = .loaded)
    (history : after.policies = store.policies)
    (setting : after.globalSettings.settings.lookup policySettingKey = some (settingOf wire policy)) :
    Kept wire policies after := by
  apply kept.setting history
  · intro value isValue
    rw [setting] at isValue
    cases isValue
    cases earlier : store.globalSettings.settings.lookup policySettingKey with
    | none => exact absurd loaded (kept.inactive earlier current isLatest)
    | some value =>
      obtain ⟨latest, isLatest', _, _, _, recorded, isRecorded, _, payload, recordedHash, _⟩ := kept.active value earlier
      rw [isLatest] at isLatest'
      cases isLatest'
      exact ⟨current, isLatest, loaded, policy, member, recorded, isRecorded, rfl, payload, recordedHash,
        distinct policy member recorded isRecorded (hash.symm.trans recordedHash)⟩
  · intro unset
    rw [setting] at unset
    cases unset

/-- The history after a new global policy has been put, marked as loaded, and its predecessors superseded. -/
structure Published (wire : Wire Blob) (policy : SandboxPolicy) (store after : Store Blob) : Prop where
  latest : ∃ loadedAtMs, after.getLatestPolicy globalPolicySandboxId =
    some ((Store.newRevision globalPolicySandboxId (store.latestVersion globalPolicySandboxId + 1)
      (wire.encodePolicy policy) (deterministicPolicyHash wire policy)).withStatus .loaded none loadedAtMs)
  older : ∀ record ∈ after.policies, record.sandboxId = globalPolicySandboxId →
    record.version < store.latestVersion globalPolicySandboxId + 1 → record.status = .superseded

theorem Kept.publish (kept : Kept wire policies store) {policy : SandboxPolicy} {result : Store Blob}
    (written : store.putPolicyRevision globalPolicySandboxId (store.latestVersion globalPolicySandboxId + 1)
      (wire.encodePolicy policy) (deterministicPolicyHash wire policy) = .ok result) (loadedAtMs : Option Int) :
    Published wire policy store ((result.updatePolicyStatus globalPolicySandboxId
      (store.latestVersion globalPolicySandboxId + 1) .loaded none loadedAtMs).supersedeOlderPolicies
        globalPolicySandboxId (store.latestVersion globalPolicySandboxId + 1)) := by
  constructor
  · refine ⟨loadedAtMs, ?_⟩
    rw [Store.getLatestPolicy_supersede, Store.getLatestPolicy_updateStatus, Store.getLatestPolicy_put written]
    simp only [Option.map_some]
    rw [if_pos (by simp [Store.newRevision]), Store.supersedeRow_of_le (by simp [Store.newRevision, PolicyRecord.withStatus])]
  · intro record member owner older
    obtain ⟨middle, middleMember, isRecord⟩ := Store.mem_supersedeOlderPolicies.mp member
    obtain ⟨old, oldMember, isMiddle⟩ := Store.mem_updatePolicyStatus.mp middleMember
    rw [isRecord, Store.supersedeRow_sandboxId] at owner
    rw [isRecord, Store.supersedeRow_version] at older
    split at isMiddle
    · rename_i named
      rw [isMiddle] at older
      exact absurd named.2 (Nat.ne_of_lt older)
    · subst isMiddle
      rw [Table.mem_rows, (Store.putPolicyRevision_ok written).1] at oldMember
      rcases List.mem_append.mp oldMember with earlier | added
      · rw [isRecord]
        exact supersedeRow_status owner older (kept.status earlier owner)
      · rw [List.mem_singleton.mp added] at older
        exact absurd older (Nat.lt_irrefl _)

theorem kept_of_published {published : Store Blob} {policy : SandboxPolicy} (new : Published wire policy store published)
    (member : policy ∈ policies) (history : after.policies = published.policies)
    (setting : after.globalSettings.settings.lookup policySettingKey = some (settingOf wire policy)) :
    Kept wire policies after := by
  obtain ⟨loadedAtMs, isLatest⟩ := new.latest
  have latest : after.getLatestPolicy globalPolicySandboxId = published.getLatestPolicy globalPolicySandboxId := by
    unfold Store.getLatestPolicy
    rw [history]
  rw [isLatest] at latest
  have version : after.latestVersion globalPolicySandboxId = store.latestVersion globalPolicySandboxId + 1 := by
    unfold Store.latestVersion
    rw [latest]
    rfl
  constructor
  · rw [history, version]
    exact new.older
  · intro other isOther
    rw [latest] at isOther
    cases isOther
    exact Or.inl rfl
  · intro value isValue
    rw [setting] at isValue
    cases isValue
    exact ⟨_, latest, rfl, policy, member, policy, member, rfl, rfl, rfl, .refl policy⟩
  · intro unset
    rw [setting] at unset
    cases unset

/-- Deleting the setting supersedes the whole history. -/
theorem Kept.retire (kept : Kept wire policies store) {latest : PolicyRecord Blob}
    (isLatest : store.getLatestPolicy globalPolicySandboxId = some latest)
    (history : after.policies = (store.supersedeOlderPolicies globalPolicySandboxId (latest.version + 1)).policies)
    (unset : after.globalSettings.settings.lookup policySettingKey = none) : Kept wire policies after := by
  obtain ⟨latestMember, chosen, bound⟩ := Table.latest_some isLatest
  have retired : ∀ record ∈ after.policies, record.sandboxId = globalPolicySandboxId → record.status = .superseded := by
    intro record member owner
    rw [history] at member
    obtain ⟨old, oldMember, isRecord⟩ := Store.mem_supersedeOlderPolicies.mp member
    rw [isRecord, Store.supersedeRow_sandboxId] at owner
    rw [isRecord]
    exact supersedeRow_status owner (Nat.lt_succ_of_le (bound old oldMember (by simpa using owner)))
      (kept.status oldMember owner)
  have newest : ∀ record, after.getLatestPolicy globalPolicySandboxId = some record → record.status = .superseded := by
    intro record isRecord
    obtain ⟨member, owner, _⟩ := Table.latest_some isRecord
    exact retired record member (by simpa using owner)
  constructor
  · intro record member owner _
    exact retired record member owner
  · intro record isRecord
    exact Or.inr (newest record isRecord)
  · intro value set
    rw [unset] at set
    cases set
  · intro _ record isRecord loaded
    rw [newest record isRecord] at loaded
    cases loaded

end Updates

/-! The handlers. -/

section Handlers

variable {wire : Wire Blob} {policies : List SandboxPolicy} {store : Store Blob}

theorem run_persistRevision (store : Store Blob) (policy : SandboxPolicy) (problem : String) {result : Store Blob}
    (written : store.putPolicyRevision globalPolicySandboxId (store.latestVersion globalPolicySandboxId + 1)
      (wire.encodePolicy policy) (deterministicPolicyHash wire policy) = .ok result) :
    (persistRevision wire globalPolicySandboxId (store.getLatestPolicy globalPolicySandboxId) policy problem).run
      Store.exec store = (.ok (store.latestVersion globalPolicySandboxId + 1), result) := by
  have next : (store.getLatestPolicy globalPolicySandboxId).elim 1 (fun record => record.version + 1) =
      store.latestVersion globalPolicySandboxId + 1 := by
    unfold Store.latestVersion
    cases store.getLatestPolicy globalPolicySandboxId <;> rfl
  unfold persistRevision
  rw [next, run_ask_bind]
  simp only [Store.exec, written, Store.write]
  rfl

theorem kept_updateGlobalPolicy (kept : Kept wire policies store)
    (distinct : ∀ first ∈ policies, ∀ second ∈ policies,
      deterministicPolicyHash wire first = deterministicPolicyHash wire second → first.Same second)
    (request : UpdateConfigRequest) {submitted : SandboxPolicy}
    (member : ensureSandboxProcessIdentity submitted ∈ policies) :
    Leaves (Kept wire policies) (updateGlobalPolicy wire request submitted) store := by
  apply Leaves.guard kept
  intro _
  apply Leaves.lift kept
  intro _ _
  unfold Leaves
  rw [run_ask_bind]
  simp only [Store.exec, run_orInternal_ok_bind]
  split
  · rename_i current isCurrent
    obtain ⟨isLatest, unchanged⟩ := Option.filter_eq_some_iff.mp isCurrent
    simp only [Bool.and_eq_true, decide_eq_true_eq] at unchanged
    obtain ⟨revision, after, ran, history, setting⟩ := run_recordGlobalPolicy wire store
      (ensureSandboxProcessIdentity submitted)
    rw [run_bind_of_ok ran]
    exact kept.again distinct member isLatest unchanged.1 unchanged.2 history setting
  · obtain ⟨result, written⟩ := store.putPolicyRevision_next globalPolicySandboxId
      (wire.encodePolicy (ensureSandboxProcessIdentity submitted))
      (deterministicPolicyHash wire (ensureSandboxProcessIdentity submitted))
    rw [run_bind_of_ok (run_persistRevision store _ _ written)]
    simp only [run_ask_bind, Store.exec]
    obtain ⟨revision, after, ran, history, setting⟩ := run_recordGlobalPolicy wire _
      (ensureSandboxProcessIdentity submitted)
    rw [run_bind_of_ok ran]
    exact kept_of_published (kept.publish written _) member history setting

/-- Saving a change that does not touch the policy's own key. -/
theorem kept_saveOther (kept : Kept wire policies store) (changed : Option (StringMap StoredSettingValue))
    (same : (changed.getD store.globalSettings.settings).lookup policySettingKey =
      store.globalSettings.settings.lookup policySettingKey) (respond : UInt64 → UpdateConfigResponse) :
    Leaves (Kept wire policies) (bumpAndSave saveGlobalSettings store.globalSettings changed >>= fun revision =>
      pure (respond revision)) store := by
  obtain ⟨revision, after, ran, history, settings⟩ := run_bumpAndSave store changed
  rw [← settings] at same
  unfold Leaves
  rw [run_bind_of_ok ran]
  exact kept.otherSetting history same

theorem run_retireGlobalPolicy {latest : PolicyRecord Blob}
    (isLatest : store.getLatestPolicy globalPolicySandboxId = some latest) :
    (retireGlobalPolicy : Handler Blob Unit).run Store.exec store =
      (.ok (), store.supersedeOlderPolicies globalPolicySandboxId (latest.version + 1)) := by
  unfold retireGlobalPolicy
  rw [run_ask_bind]
  simp only [Store.exec, isLatest, run_ask_bind]
  rfl

theorem kept_deletePolicy (kept : Kept wire policies store)
    (present : (store.globalSettings.settings.lookup policySettingKey).isSome = true)
    {changed : Option (StringMap StoredSettingValue)}
    (erased : changed = some (store.globalSettings.settings.erase policySettingKey))
    (respond : UInt64 → UpdateConfigResponse) :
    Leaves (Kept wire policies) (retireGlobalPolicy >>= fun _ =>
      bumpAndSave saveGlobalSettings store.globalSettings changed >>= fun revision => pure (respond revision)) store := by
  subst erased
  obtain ⟨value, setting⟩ := Option.isSome_iff_exists.mp present
  obtain ⟨latest, isLatest, _⟩ := kept.active value setting
  obtain ⟨revision, after, ran, history, settings⟩ :=
    run_bumpAndSave (store.supersedeOlderPolicies globalPolicySandboxId (latest.version + 1))
      (some (store.globalSettings.settings.erase policySettingKey))
  have unset : after.globalSettings.settings.lookup policySettingKey = none := by
    rw [settings]
    exact AList.lookup_erase _ _
  have untouched : (store.supersedeOlderPolicies globalPolicySandboxId (latest.version + 1)).globalSettings =
      store.globalSettings := rfl
  rw [untouched] at ran
  unfold Leaves
  rw [run_bind_of_ok (run_retireGlobalPolicy isLatest), run_bind_of_ok ran]
  exact kept.retire isLatest history unset

def eraseSetting (settings : StringMap StoredSettingValue) (key : String) : Option (StringMap StoredSettingValue) :=
  if (settings.lookup key).isSome then some (settings.erase key) else none

theorem lookup_eraseSetting {settings : StringMap StoredSettingValue} {key other : String}
    (apart : ¬ ((settings.lookup key).isSome ∧ key = other)) :
    ((eraseSetting settings key).getD settings).lookup other = settings.lookup other := by
  unfold eraseSetting
  split
  · rename_i present
    exact AList.lookup_erase_ne fun same => apart ⟨present, same.symm⟩
  · rfl

/-- A setting is taken out; where it is the policy, its history is retired first. -/
theorem kept_deleteSetting (kept : Kept wire policies store) (key : String) (respond : UInt64 → UpdateConfigResponse) :
    Leaves (Kept wire policies) (if ((store.globalSettings.settings.lookup key).isSome &&
        decide (key = policySettingKey)) = true then
      retireGlobalPolicy >>= fun _ => bumpAndSave saveGlobalSettings store.globalSettings
        (eraseSetting store.globalSettings.settings key) >>= fun revision => pure (respond revision)
      else bumpAndSave saveGlobalSettings store.globalSettings
        (eraseSetting store.globalSettings.settings key) >>= fun revision => pure (respond revision)) store := by
  split
  · rename_i retires
    rw [Bool.and_eq_true, decide_eq_true_eq] at retires
    obtain ⟨present, rfl⟩ := retires
    exact kept_deletePolicy kept present (if_pos present) respond
  · rename_i stays
    rw [Bool.and_eq_true, decide_eq_true_eq] at stays
    exact kept_saveOther kept _ (lookup_eraseSetting stays) respond

theorem kept_updateGlobalSetting (kept : Kept wire policies store) (request : UpdateConfigRequest) :
    Leaves (Kept wire policies) (updateGlobalSetting request) store := by
  apply Leaves.guard kept
  intro reserved
  extract_lets later
  have applies : Leaves (Kept wire policies) (later ()) store := by
    change Leaves _ (loadGlobalSettings >>= _) store
    unfold Leaves loadGlobalSettings
    rw [run_loadSettingsRecord_bind]
    change Leaves (Kept wire policies) _ store
    split
    · exact kept_deleteSetting kept request.key fun revision =>
        ⟨0, "", revision, (store.globalSettings.settings.lookup request.key).isSome⟩
    · rename_i sets
      have other : request.key ≠ policySettingKey := by simpa [sets] using reserved
      apply Leaves.lift kept
      intro stored _
      apply kept_saveOther kept
      unfold upsertSettingValue
      split
      · rfl
      · exact AList.lookup_insert_ne other.symm
  split
  · apply Leaves.lift kept
    intro _ _
    exact applies
  · exact applies

theorem kept_call (kept : Kept wire policies store)
    (distinct : ∀ first ∈ policies, ∀ second ∈ policies,
      deterministicPolicyHash wire first = deterministicPolicyHash wire second → first.Same second)
    (call : GlobalCall) (listed : ∀ policy, call.policy = some policy → policy ∈ policies) :
    Kept wire policies (call.outcome wire store) := by
  cases call with
  | report received => exact kept_report kept received.real
  | update submitted =>
    change Leaves (Kept wire policies) (handleUpdateConfig wire submitted.request) store
    apply Leaves.guard kept
    intro _
    apply Leaves.guard kept
    intro _
    rw [if_pos submitted.globalScoped]
    split
    · rename_i policy isPolicy
      refine kept_updateGlobalPolicy kept distinct submitted.request (listed _ ?_)
      simp only [GlobalCall.policy, isPolicy, Option.map_some]
    · exact kept_updateGlobalSetting kept submitted.request

/-- After any run of global updates and reports, the setting and the history tell the same policy. -/
theorem global_history_agrees (wire : Wire Blob) (decode : List UInt8 → Except String SandboxPolicy) (start : Store Blob)
    (fresh : start.NoGlobal) (calls : List GlobalCall)
    (identifies : Identifies wire decode (calls.filterMap GlobalCall.policy)) :
    GlobalAgrees wire decode (Machine.run (GlobalCall.outcome wire) start calls) := by
  have kept : Kept wire (calls.filterMap GlobalCall.policy) (Machine.run (GlobalCall.outcome wire) start calls) := by
    refine Machine.run_invariant (Kept wire _) ?_ (kept_of_noGlobal fresh)
    intro store call member held
    refine kept_call held identifies.hashes call ?_
    intro policy isPolicy
    exact List.mem_filterMap.mpr ⟨call, member, isPolicy⟩
  exact kept.agrees identifies

def emptyGlobalPolicy : SandboxPolicy := ensureSandboxProcessIdentity {}

theorem set_reported_and_deleted_agrees :
    GlobalAgrees plainWire (fun _ => .ok emptyGlobalPolicy) (Machine.run (GlobalCall.outcome plainWire) {}
      [.update ⟨{ policy := some {}, global := true }, rfl⟩,
        .report ⟨{ sandboxId := "sb", version := 1, status := 2 }, by decide⟩,
        .update ⟨{ settingKey := "policy", deleteSetting := true, global := true }, rfl⟩]) := by
  apply global_history_agrees
  · exact ⟨rfl, fun record member => nomatch member⟩
  · constructor
    · intro policy member
      rw [List.mem_singleton.mp member]
      rfl
    · intro first member second other _
      rw [List.mem_singleton.mp member, List.mem_singleton.mp other]
      exact .refl _

end Handlers

end OpenShell.Server
