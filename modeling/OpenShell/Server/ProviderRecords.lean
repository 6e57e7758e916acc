import OpenShell.Lib.Machine
import OpenShell.Server.Objects
import OpenShell.Server.Providers

namespace OpenShell.Server.ProviderRecords

open OpenShell.Policy

/-! The provider records through the calls that create, update and delete them, one after another. -/

instance : Stored Provider where
  objectType _ := "provider"
  objectId := Provider.id
  objectName := Provider.name

abbrev Records : Type := Objects Provider

/-- What a call finds outside: the name and the id that it draws, the clock, and the statements that fail. -/
structure Outside where
  generatedName : String
  id : String
  nowMs : Int
  fetchError : Option String := none
  writeError : Option String := none

def redactProviderCredentials (provider : Provider) : Provider :=
  { provider with credentials := Maps.mapValues (fun _ _ => "REDACTED") provider.credentials }

/-- `provider.type.trim().is_empty()`. -/
def Blank (type : String) : Prop := (Text.trim type.toList).isEmpty = true

instance (type : String) : Decidable (Blank type) := inferInstanceAs (Decidable (_ = _))

def named (outside : Outside) (provider : Provider) : Provider :=
  if provider.name = "" then { provider with name := outside.generatedName } else provider

def getMessageByName (outside : Outside) (records : Records) (name : String) :
    Except Status (Option (ObjectRecord Provider)) :=
  mapInternal "fetch provider failed" (attempt outside.fetchError (.ok (records.getByName "provider" name)))

def putMessage (outside : Outside) (records : Records) (provider : Provider) : Except Status Records :=
  mapInternal "persist provider failed" (attempt outside.writeError (records.put outside.nowMs provider))

def createProviderRecord (outside : Outside) (given : Provider) (records : Records) :
    Except Status (Provider × Records) :=
  let provider := named outside given
  if Blank provider.type then .error (invalidArgument "provider.type is required")
  else if provider.credentials.entries.isEmpty then
    .error (invalidArgument "provider.credentials must not be empty")
  else do
    validateProviderFields provider
    let existing ← getMessageByName outside records provider.name
    if existing.isSome then throw ⟨.alreadyExists, "provider already exists"⟩
    let provider := { provider with id := outside.id }
    let records ← putMessage outside records provider
    return (redactProviderCredentials provider, records)

/-- `update_provider_record`, with what it makes of the record that it reads. -/
def updateRecord (outside : Outside) (provider : Provider) (records : Records) :
    Except Status (Provider × Records) :=
  if provider.name = "" then .error (invalidArgument "provider.name is required")
  else do
    let existing ← getMessageByName outside records provider.name
    let updated ← updateProviderRecord provider (existing.map ObjectRecord.message)
    let records ← putMessage outside records updated
    return (redactProviderCredentials updated, records)

def deleteProviderRecord (outside : Outside) (name : String) (records : Records) : Except Status (Bool × Records) :=
  if name = "" then .error (invalidArgument "name is required")
  else mapInternal "delete provider failed" (attempt outside.writeError (.ok (records.deleteByName "provider" name)))

inductive Call where
  | create (provider : Provider)
  | update (provider : Provider)
  | delete (name : String)

structure Event where
  call : Call
  outside : Outside

def perform (records : Records) (event : Event) : Except Status Records :=
  match event.call with
  | .create provider => (createProviderRecord event.outside provider records).map Prod.snd
  | .update provider => (updateRecord event.outside provider records).map Prod.snd
  | .delete name => (deleteProviderRecord event.outside name records).map Prod.snd

/-- A call that returns an error has written nothing. -/
def step (records : Records) (event : Event) : Records :=
  match perform records event with
  | .ok result => result
  | .error _ => records

def run (events : List Event) : Records := Machine.run step Objects.empty events

/-- The id that a call draws. -/
def drawn (event : Event) : Option String :=
  match event.call with
  | .create _ => some event.outside.id
  | .update _ | .delete _ => none

/-! What has to hold of the records, and when it does. -/

/-- What the creation of a provider enforces and what it has fixed. -/
structure Sound (events : List Event) (record : ObjectRecord Provider) : Prop where
  typed : ¬Blank record.message.type
  credentialed : record.message.credentials.entries ≠ []
  limited : validateProviderFields record.message = .ok ()
  created : ∃ event ∈ events, ∃ provider, event.call = .create provider ∧ record.message.id = event.outside.id ∧
    record.message.name = (named event.outside provider).name ∧ record.message.type = provider.type
  column : record.name = record.message.name

structure WellFormed (events : List Event) (records : Records) : Prop where
  each : ∀ record ∈ records, Sound events record
  names : (records.table.rows.map fun record => record.message.name).Nodup

def merged (stored provider : Provider) : Provider :=
  { stored with
    credentials := mergeMap stored.credentials provider.credentials
    config := mergeMap stored.config provider.config }

/-- What an update needs beside the limits of the credentials. -/
structure Accepted (outside : Outside) (provider stored : Provider) : Prop where
  named : provider.name ≠ ""
  sameType : Blank provider.type ∨
    eqIgnoreAsciiCase (Text.trim provider.type.toList) (Text.trim stored.type.toList) = true
  config : validateStringMap (mergeMap stored.config provider.config) maxProviderConfigEntries maxMapKeyLen
    maxMapValueLen "provider.config" = .ok ()
  fetched : outside.fetchError = none
  written : outside.writeError = none

/-- A credential that an update leaves: one that it sends with a value, or a stored one that it does not send. -/
def Left (stored provider : Provider) (key : String) : Prop :=
  (∃ value, provider.credentials.lookup key = some value ∧ value ≠ "") ∨
    (key ∈ stored.credentials ∧ key ∉ provider.credentials)

/-- An update that its other checks let through leaves a credential. -/
def LeavesCredential (records : Records) (event : Event) : Prop :=
  ∀ provider, event.call = .update provider → ∀ stored ∈ records, stored.name = provider.name →
    Accepted event.outside provider stored.message → ∃ key, Left stored.message provider key

/-! The calls that succeed. -/

theorem named_type (outside : Outside) (provider : Provider) : (named outside provider).type = provider.type := by
  unfold named
  split <;> rfl

theorem named_credentials (outside : Outside) (provider : Provider) :
    (named outside provider).credentials = provider.credentials := by
  unfold named
  split <;> rfl

theorem createProviderRecord_ok {outside : Outside} {given answer : Provider} {records result : Records}
    (succeeded : createProviderRecord outside given records = .ok (answer, result)) :
    ¬Blank given.type ∧ given.credentials.entries ≠ [] ∧ validateProviderFields (named outside given) = .ok () ∧
      records.put outside.nowMs { named outside given with id := outside.id } = .ok result := by
  unfold createProviderRecord at succeeded
  dsimp only at succeeded
  split at succeeded
  · cases succeeded
  · rename_i typed
    rw [named_type] at typed
    split at succeeded
    · cases succeeded
    · rename_i filled
      rw [named_credentials] at filled
      obtain ⟨_, valid, succeeded⟩ := Results.ok_of_bind succeeded
      obtain ⟨existing, -, succeeded⟩ := Results.ok_of_bind succeeded
      split at succeeded
      · cases succeeded
      · obtain ⟨stored, put, same⟩ := Results.ok_of_bind succeeded
        obtain ⟨rfl, rfl⟩ := Prod.mk.inj (Except.ok.inj same)
        exact ⟨typed, fun none => filled (List.isEmpty_iff.mpr none), valid, (attempt_ok put).2⟩

theorem updateProviderRecord_iff {provider stored updated : Provider} :
    updateProviderRecord provider (some stored) = .ok updated ↔ provider.name ≠ "" ∧
      (Blank provider.type ∨ eqIgnoreAsciiCase (Text.trim provider.type.toList) (Text.trim stored.type.toList) = true) ∧
      validateProviderFields (merged stored provider) = .ok () ∧ updated = merged stored provider := by
  unfold updateProviderRecord
  by_cases unnamed : provider.name = ""
  · simp [unnamed]
  · simp only [if_neg unnamed]
    by_cases differs : ¬(Text.trim provider.type.toList).isEmpty = true ∧
        ¬eqIgnoreAsciiCase (Text.trim provider.type.toList) (Text.trim stored.type.toList) = true
    · rw [if_pos differs]
      simp only [reduceCtorEq, false_iff]
      rintro ⟨-, same | same, -⟩
      · exact differs.1 same
      · exact differs.2 same
    · rw [if_neg differs]
      have same := Decidable.or_iff_not_not_and_not.mpr differs
      constructor
      · intro written
        obtain ⟨_, valid, written⟩ := Results.ok_of_bind written
        exact ⟨unnamed, same, valid, (Except.ok.inj written).symm⟩
      · rintro ⟨-, -, valid, rfl⟩
        show (validateProviderFields (merged stored provider) >>= fun _ => pure (merged stored provider)) = _
        rw [valid]
        rfl

theorem validateProviderFields_iff {provider : Provider} :
    validateProviderFields provider = .ok () ↔ provider.name.utf8ByteSize ≤ maxNameLen ∧
      provider.type.utf8ByteSize ≤ maxProviderTypeLen ∧
      validateStringMap provider.credentials maxProviderCredentialsEntries maxMapKeyLen maxMapValueLen
        "provider.credentials" = .ok () ∧
      validateStringMap provider.config maxProviderConfigEntries maxMapKeyLen maxMapValueLen
        "provider.config" = .ok () := by
  unfold validateProviderFields
  by_cases long : maxNameLen < provider.name.utf8ByteSize
  · simp only [if_pos long]
    constructor
    · intro valid
      cases valid
    · rintro ⟨short, -⟩
      omega
  · by_cases longType : maxProviderTypeLen < provider.type.utf8ByteSize
    · simp only [if_neg long, if_pos longType]
      constructor
      · intro valid
        cases valid
      · rintro ⟨-, short, -⟩
        omega
    · simp only [if_neg long, if_neg longType]
      constructor
      · intro valid
        obtain ⟨_, credentials, config⟩ := Results.ok_of_bind valid
        exact ⟨by omega, by omega, credentials, config⟩
      · rintro ⟨-, -, credentials, config⟩
        show (validateStringMap _ _ _ _ _ >>= fun _ => validateStringMap _ _ _ _ _) = _
        rw [credentials]
        exact config

variable {records result : Records} {event : Event}

theorem put_merged {outside : Outside} {stored : ObjectRecord Provider} (member : stored ∈ records)
    (provider : Provider) :
    records.put outside.nowMs (merged stored.message provider) =
      .ok (records.replace (merged stored.message provider)) :=
  Objects.put_taken member rfl

theorem updateRecord_ok {outside : Outside} {provider answer : Provider}
    (succeeded : updateRecord outside provider records = .ok (answer, result)) :
    ∃ stored ∈ records, stored.name = provider.name ∧ Accepted outside provider stored.message ∧
      validateProviderFields (merged stored.message provider) = .ok () ∧
      result = records.replace (merged stored.message provider) := by
  unfold updateRecord at succeeded
  split at succeeded
  · cases succeeded
  · obtain ⟨existing, fetched, succeeded⟩ := Results.ok_of_bind succeeded
    obtain ⟨updated, written, succeeded⟩ := Results.ok_of_bind succeeded
    obtain ⟨stored, put, same⟩ := Results.ok_of_bind succeeded
    obtain ⟨-, rfl⟩ := Prod.mk.inj (Except.ok.inj same)
    obtain ⟨readable, found⟩ := attempt_ok fetched
    obtain ⟨writable, put⟩ := attempt_ok put
    cases existing with
    | none =>
      obtain ⟨_, absent, -⟩ := updateProviderRecord_ok written
      cases absent
    | some record =>
      obtain ⟨member, -, sameName⟩ := Objects.getByName_some.mp (Except.ok.inj found)
      obtain ⟨given, sameType, valid, rfl⟩ := updateProviderRecord_iff.mp written
      rw [put_merged member provider] at put
      have config := (validateProviderFields_iff.mp valid).2.2.2
      exact ⟨record, member, sameName, ⟨given, sameType, config, readable, writable⟩, valid, (Except.ok.inj put).symm⟩

theorem updateRecord_accepted {outside : Outside} {provider : Provider} {stored : ObjectRecord Provider}
    (member : stored ∈ records) (sameName : stored.name = provider.name)
    (accepted : Accepted outside provider stored.message)
    (valid : validateProviderFields (merged stored.message provider) = .ok ()) :
    updateRecord outside provider records = .ok (redactProviderCredentials (merged stored.message provider),
      records.replace (merged stored.message provider)) := by
  have found : records.getByName "provider" provider.name = some stored :=
    Objects.getByName_some.mpr ⟨member, rfl, sameName⟩
  have written := updateProviderRecord_iff.mpr ⟨accepted.named, accepted.sameType, valid, rfl⟩
  unfold updateRecord getMessageByName putMessage
  rw [if_neg accepted.named, accepted.fetched, accepted.written, found]
  simp only [attempt, mapInternal, Except.mapError]
  show (updateProviderRecord provider (some stored.message) >>= _) = _
  rw [written]
  show (mapInternal _ (records.put outside.nowMs (merged stored.message provider)) >>= _) = _
  rw [put_merged member provider]
  rfl

/-- All that one call can do. -/
theorem step_cases (records : Records) (event : Event) :
    step records event = records ∨
      (∃ provider, event.call = .create provider ∧ ¬Blank provider.type ∧ provider.credentials.entries ≠ [] ∧
        validateProviderFields (named event.outside provider) = .ok () ∧
        records.put event.outside.nowMs { named event.outside provider with id := event.outside.id } =
          .ok (step records event)) ∨
      (∃ provider, event.call = .update provider ∧ ∃ stored ∈ records, stored.name = provider.name ∧
        Accepted event.outside provider stored.message ∧
        validateProviderFields (merged stored.message provider) = .ok () ∧
        step records event = records.replace (merged stored.message provider)) ∨
      ∃ name, event.call = .delete name ∧ step records event = (records.deleteByName "provider" name).2 := by
  obtain ⟨call, outside⟩ := event
  cases performed : perform records ⟨call, outside⟩ with
  | error status =>
    left
    rw [step, performed]
  | ok result =>
    right
    have stepped : step records ⟨call, outside⟩ = result := by rw [step, performed]
    rw [stepped]
    cases call with
    | create provider =>
      left
      obtain ⟨answer, created, rfl⟩ := Results.ok_of_map performed
      obtain ⟨typed, filled, valid, put⟩ := createProviderRecord_ok created
      exact ⟨provider, rfl, typed, filled, valid, put⟩
    | update provider =>
      right
      left
      obtain ⟨answer, updated, rfl⟩ := Results.ok_of_map performed
      exact ⟨provider, rfl, updateRecord_ok updated⟩
    | delete name =>
      right
      right
      refine ⟨name, rfl, ?_⟩
      obtain ⟨answer, deleted, rfl⟩ := Results.ok_of_map performed
      unfold deleteProviderRecord at deleted
      split at deleted
      · cases deleted
      · rw [Except.ok.inj (attempt_ok deleted).2]

theorem mergeMap_ne_nil_iff {stored provider : Provider} :
    (merged stored provider).credentials.entries ≠ [] ↔ ∃ key, Left stored provider key := by
  have filled (map : StringMap String) : map.entries ≠ [] ↔ ∃ key, (map.lookup key).isSome = true := by
    simp only [AList.lookup_isSome, AList.mem_keys, AList.keys]
    constructor
    · intro filled
      obtain ⟨entry, member⟩ := List.exists_mem_of_ne_nil _ filled
      exact ⟨entry.1, List.mem_keys_of_mem member⟩
    · rintro ⟨key, member⟩
      obtain ⟨value, found⟩ := List.exists_of_mem_keys member
      exact List.ne_nil_of_mem found
  rw [filled]
  refine exists_congr fun key => ?_
  show ((mergeMap stored.credentials provider.credentials).lookup key).isSome = true ↔ _
  rw [lookup_mergeMap, Left]
  cases found : provider.credentials.lookup key with
  | none =>
    rw [← AList.lookup_isSome (a := key) (s := stored.credentials), ← AList.lookup_eq_none]
    simp [found]
  | some value =>
    have sentKey : key ∈ provider.credentials := AList.lookup_isSome.mp (by rw [found]; rfl)
    by_cases empty : value = "" <;> simp [sent, empty, sentKey]

/-! What one call keeps, and what a run of them keeps. -/

variable {done events : List Event}

theorem Sound.mono {record : ObjectRecord Provider} (sound : Sound done record) (event : Event) :
    Sound (done ++ [event]) record where
  typed := sound.typed
  credentialed := sound.credentialed
  limited := sound.limited
  created := by
    obtain ⟨earlier, member, same⟩ := sound.created
    exact ⟨earlier, List.mem_append_left _ member, same⟩
  column := sound.column

theorem sound_created {provider : Provider} (creates : event.call = .create provider)
    (typed : ¬Blank provider.type) (filled : provider.credentials.entries ≠ [])
    (valid : validateProviderFields (named event.outside provider) = .ok ()) :
    Sound (done ++ [event])
      (.inserted event.outside.nowMs { named event.outside provider with id := event.outside.id }) where
  typed := by
    show ¬Blank (named event.outside provider).type
    rw [named_type]
    exact typed
  credentialed := by
    show (named event.outside provider).credentials.entries ≠ []
    rw [named_credentials]
    exact filled
  limited := valid
  created := ⟨event, List.mem_append_right _ (List.mem_singleton_self _), provider, creates, rfl, rfl,
    named_type event.outside provider⟩
  column := rfl

theorem sound_merged {stored : ObjectRecord Provider} {provider : Provider} (sound : Sound done stored)
    (valid : validateProviderFields (merged stored.message provider) = .ok ())
    (left : ∃ key, Left stored.message provider key) :
    Sound done (stored.withMessage (merged stored.message provider)) where
  typed := sound.typed
  credentialed := mergeMap_ne_nil_iff.mpr left
  limited := valid
  created := sound.created
  column := sound.column

theorem sound_step (sound : ∀ record ∈ records, Sound done record)
    (fresh : ∀ id, drawn event = some id → ∀ earlier ∈ done, drawn earlier ≠ some id)
    (leaves : LeavesCredential records event) : ∀ record ∈ step records event, Sound (done ++ [event]) record := by
  rcases step_cases records event with same | ⟨provider, creates, typed, filled, valid, put⟩ |
    ⟨provider, updates, stored, member, sameName, accepted, valid, same⟩ | ⟨name, -, same⟩
  · rw [same]
    exact fun record member => (sound record member).mono event
  · have newId : ∀ old ∈ records, old.id ≠ event.outside.id := by
      intro old member taken
      obtain ⟨earlier, before, given, created, sameId, -⟩ := (sound old member).created
      refine fresh event.outside.id (by rw [drawn, creates]) earlier before ?_
      rw [drawn, created, ← sameId]
      exact congrArg some taken
    obtain ⟨rows, -⟩ := Objects.put_new newId put
    intro record member
    rw [Objects.mem_rows, rows, List.mem_append, List.mem_singleton] at member
    rcases member with old | rfl
    · exact (sound record old).mono event
    · exact sound_created creates typed filled valid
  · have left := leaves provider updates stored member sameName accepted
    rw [same]
    intro record written
    obtain ⟨old, before, rfl⟩ := Objects.mem_replace.mp written
    split
    · rename_i held
      have this : old = stored := Objects.eq_of_id before member (ObjectRecord.holds_iff.mp held).2
      rw [this]
      exact (sound_merged (sound stored member) valid left).mono event
    · exact (sound old before).mono event
  · rw [same]
    intro record kept
    exact (sound record (Objects.mem_deleteWhere.mp kept).1).mono event

theorem names_nodup (column : ∀ record ∈ records, record.name = record.message.name) :
    (records.table.rows.map fun record => record.message.name).Nodup := by
  rw [List.Nodup, List.pairwise_map]
  refine (List.pairwise_map.mp records.named).imp_of_mem ?_
  intro first second firstIn secondIn differ same
  apply differ
  rw [← column first firstIn, ← column second secondIn] at same
  exact Prod.ext rfl same

theorem wellFormed_of_sound (sound : ∀ record ∈ records, Sound done record) : WellFormed done records :=
  ⟨sound, names_nodup fun record member => (sound record member).column⟩

theorem run_concat (done : List Event) (event : Event) : run (done ++ [event]) = step (run done) event := by
  rw [run, Machine.run_append]
  rfl

theorem sound_run (distinct : (events.filterMap drawn).Nodup)
    (leave : Machine.Along step LeavesCredential Objects.empty events) :
    ∀ record ∈ run events, Sound events record := by
  induction events using List.reverseRecOn with
  | nil => exact fun record member => absurd member List.not_mem_nil
  | append_singleton done event ih =>
    obtain ⟨before, leaves, -⟩ := Machine.along_append.mp leave
    rw [List.filterMap_append] at distinct
    obtain ⟨earlier, -, apart⟩ := List.nodup_append.mp distinct
    rw [run_concat]
    apply sound_step (ih earlier before) ?_ leaves
    intro id draws other member same
    exact apart id (List.mem_filterMap.mpr ⟨other, member, same⟩) id
      (List.mem_filterMap.mpr ⟨event, List.mem_singleton_self _, draws⟩) rfl

/-- An update that takes the last credential is written. -/
theorem leaves_of_sound (sound : ∀ record ∈ records, Sound done record)
    (after : ∀ record ∈ step records event, record.message.credentials.entries ≠ []) :
    LeavesCredential records event := by
  intro provider updates stored member sameName accepted
  by_contra none
  have empty : (mergeMap stored.message.credentials provider.credentials).entries = [] := by
    by_contra filled
    exact none (mergeMap_ne_nil_iff.mp filled)
  have valid : validateProviderFields (merged stored.message provider) = .ok () := by
    obtain ⟨name, type, -⟩ := validateProviderFields_iff.mp (sound stored member).limited
    refine validateProviderFields_iff.mpr ⟨name, type, ?_, accepted.config⟩
    show validateStringMap (mergeMap stored.message.credentials provider.credentials) _ _ _ _ = _
    unfold validateStringMap
    rw [empty]
    rfl
  have stepped : step records event = records.replace (merged stored.message provider) := by
    have written := updateRecord_accepted member sameName accepted valid
    rw [step, perform, updates]
    simp only [written, Except.map]
  refine after (stored.withMessage (merged stored.message provider)) ?_ empty
  rw [stepped]
  exact Objects.mem_replace.mpr ⟨stored, member, (if_pos (ObjectRecord.holds_iff.mpr ⟨rfl, rfl⟩)).symm⟩

/-- The records of every state of a run are well formed exactly when every update that the other checks let through
    leaves a credential. -/
theorem providerRecords_wellFormed_iff (events : List Event) (distinct : (events.filterMap drawn).Nodup) :
    (∀ done, done <+: events → WellFormed done (run done)) ↔
      Machine.Along step LeavesCredential Objects.empty events := by
  constructor
  · intro formed
    induction events using List.reverseRecOn with
    | nil => trivial
    | append_singleton done event ih =>
      rw [List.filterMap_append] at distinct
      have before := ih (List.nodup_append.mp distinct).1 fun prior within =>
        formed prior (within.trans (List.prefix_append done [event]))
      refine Machine.along_append.mpr ⟨before, ?_, trivial⟩
      have after := formed (done ++ [event]) List.prefix_rfl
      rw [run_concat] at after
      exact leaves_of_sound (formed done (List.prefix_append done [event])).each
        fun record member => (after.each record member).credentialed
  · rintro leave done ⟨rest, rfl⟩
    rw [List.filterMap_append] at distinct
    exact wellFormed_of_sound (sound_run (List.nodup_append.mp distinct).1 (Machine.along_append.mp leave).1)

def outside : Outside := ⟨"quqzyb", "p-1", 1000, none, none⟩

/-- A request for the provider `github` with one credential. -/
def github (value : String) : Provider :=
  { id := "", name := "github", type := "github", credentials := AList.singleton "GITHUB_TOKEN" value }

def creates : Event := ⟨.create (github "old"), outside⟩

def sends (value : String) : Event := ⟨.update (github value), outside⟩

theorem rotated_wellFormed : WellFormed [creates, sends "new"] (run [creates, sends "new"]) := by
  refine (providerRecords_wellFormed_iff [creates, sends "new"] (by decide)).mpr ⟨?_, ?_, trivial⟩ _ List.prefix_rfl
  · intro _ updates
    cases updates
  · intro _ updates _ _ _ _
    cases updates
    exact ⟨"GITHUB_TOKEN", .inl ⟨"new", rfl, by decide⟩⟩

/-- The second call removes the only credential and returns `Ok`. -/
theorem emptied_malformed : ¬∀ events : List Event, (events.filterMap drawn).Nodup →
    ∀ done, done <+: events → WellFormed done (run done) := by
  intro claim
  have formed := claim [creates, sends ""] (by decide) _ List.prefix_rfl
  have emptied : (run [creates, sends ""]).table.rows.map (·.message.credentials.entries.length) = [0] := by
    decide +kernel
  obtain ⟨record, member, none⟩ := List.mem_map.mp (emptied ▸ List.mem_singleton_self 0)
  exact (formed.each record member).credentialed (List.length_eq_zero_iff.mp none)

end OpenShell.Server.ProviderRecords
