import OpenShell.Lib.Maps
import OpenShell.Lib.ReadWrite
import OpenShell.Lib.Results
import OpenShell.Server.PolicyWrites

namespace OpenShell.Server

open OpenShell.Policy ReadWrite

/-! The stored providers. An update reads the record, merges its maps and writes the record back. -/

structure Provider where
  id : String
  name : String
  type : String
  credentials : StringMap String := ∅
  config : StringMap String := ∅

def maxNameLen : Nat := 253

def maxProviderTypeLen : Nat := 64

def maxProviderCredentialsEntries : Nat := 32

def maxProviderConfigEntries : Nat := 64

def maxMapKeyLen : Nat := 256

def maxMapValueLen : Nat := 8192

def invalidArgument (message : String) : Status := ⟨.invalidArgument, message⟩

/-- `" exceeds maximum … (n > limit)"`. -/
def exceeds (what : String) (length limit : Nat) : Status :=
  invalidArgument (what ++ " (" ++ toString length ++ " > " ++ toString limit ++ ")")

def validateEntry (maxKeyLen maxValueLen : Nat) (fieldName : String) (entry : Σ _ : String, String) :
    Except Status Unit := do
  if maxKeyLen < entry.1.utf8ByteSize then
    throw (exceeds (fieldName ++ " key exceeds maximum length") entry.1.utf8ByteSize maxKeyLen)
  if maxValueLen < entry.2.utf8ByteSize then
    throw (exceeds (fieldName ++ " value exceeds maximum length") entry.2.utf8ByteSize maxValueLen)

def validateStringMap (map : StringMap String) (maxEntries maxKeyLen maxValueLen : Nat) (fieldName : String) :
    Except Status Unit := do
  if maxEntries < map.entries.length then
    throw (exceeds (fieldName ++ " exceeds maximum entries") map.entries.length maxEntries)
  map.entries.forM (validateEntry maxKeyLen maxValueLen fieldName)

def validateProviderFields (provider : Provider) : Except Status Unit := do
  if maxNameLen < provider.name.utf8ByteSize then
    throw (exceeds "provider.name exceeds maximum length" provider.name.utf8ByteSize maxNameLen)
  if maxProviderTypeLen < provider.type.utf8ByteSize then
    throw (exceeds "provider.type exceeds maximum length" provider.type.utf8ByteSize maxProviderTypeLen)
  validateStringMap provider.credentials maxProviderCredentialsEntries maxMapKeyLen maxMapValueLen
    "provider.credentials"
  validateStringMap provider.config maxProviderConfigEntries maxMapKeyLen maxMapValueLen "provider.config"

/-- One entry of an update: an empty value takes the key out. -/
def mergeEntry (map : StringMap String) (entry : Σ _ : String, String) : StringMap String :=
  if entry.2 = "" then map.erase entry.1 else map.insert entry.1 entry.2

def mergeMap (existing incoming : StringMap String) : StringMap String :=
  if incoming.entries.isEmpty then existing else incoming.entries.foldl mergeEntry existing

def eqIgnoreAsciiCase (first second : List Char) : Bool :=
  Text.toAsciiLowercase first = Text.toAsciiLowercase second

/-- What `update_provider_record` makes of the record that it has read. -/
def updateProviderRecord (provider : Provider) (existing : Option Provider) : Except Status Provider :=
  if provider.name = "" then .error (invalidArgument "provider.name is required")
  else
    match existing with
    | none => .error ⟨.notFound, "provider not found"⟩
    | some existing =>
      let incomingType := Text.trim provider.type.toList
      if ¬incomingType.isEmpty ∧ ¬eqIgnoreAsciiCase incomingType (Text.trim existing.type.toList) then
        .error (invalidArgument "provider type cannot be changed; delete and recreate the provider")
      else do
        let updated := { existing with
          credentials := mergeMap existing.credentials provider.credentials
          config := mergeMap existing.config provider.config }
        validateProviderFields updated
        return updated

inductive ProviderCall where
  | update (provider : Provider)
  | delete

/-- The calls on one provider. `delete_provider_record` is one statement of the store. -/
def providerProtocol : Protocol ProviderCall Provider where
  removesUnread
    | .update _ => false
    | .delete => true
  plan
    | .update provider => fun existing => (updateProviderRecord provider existing).toOption
    | .delete => fun _ => none
  removesWritten _ := false

/-- What a key that was sent with a value holds afterwards. -/
def sent (value : String) : Option String := if value = "" then none else some value

theorem lookup_mergeEntry (map : StringMap String) (entry : Σ _ : String, String) (key : String) :
    (mergeEntry map entry).lookup key = if key = entry.1 then sent entry.2 else map.lookup key := by
  unfold mergeEntry sent
  by_cases empty : entry.2 = ""
  · rw [if_pos empty, if_pos empty]
    by_cases same : key = entry.1
    · rw [if_pos same, same, AList.lookup_erase]
    · rw [if_neg same, AList.lookup_erase_ne same]
  · rw [if_neg empty, if_neg empty]
    by_cases same : key = entry.1
    · rw [if_pos same, same, AList.lookup_insert]
    · rw [if_neg same, AList.lookup_insert_ne same]

theorem lookup_foldl_mergeEntry (entries : List (Σ _ : String, String)) (nodup : entries.NodupKeys)
    (map : StringMap String) (key : String) :
    (entries.foldl mergeEntry map).lookup key = ((entries.dlookup key).map sent).getD (map.lookup key) := by
  induction entries generalizing map with
  | nil => rfl
  | cons entry rest ih =>
    obtain ⟨name, value⟩ := entry
    rw [List.nodupKeys_cons] at nodup
    rw [List.foldl_cons, ih nodup.2, lookup_mergeEntry]
    by_cases same : key = name
    · subst same
      rw [List.dlookup_eq_none.mpr nodup.1, List.dlookup_cons_eq]
      simp
    · rw [List.dlookup_cons_ne _ _ same, if_neg same]

theorem lookup_mergeMap (existing incoming : StringMap String) (key : String) :
    (mergeMap existing incoming).lookup key = ((incoming.lookup key).map sent).getD (existing.lookup key) := by
  unfold mergeMap
  split
  · rename_i empty
    have none : incoming.lookup key = none := by
      rw [AList.lookup, List.isEmpty_iff.mp empty, List.dlookup_nil]
    rw [none]
    rfl
  · exact lookup_foldl_mergeEntry incoming.entries incoming.nodupKeys existing key

theorem updateProviderRecord_ok {provider updated : Provider} {existing : Option Provider}
    (written : updateProviderRecord provider existing = .ok updated) :
    ∃ stored, existing = some stored ∧ updated = { stored with
      credentials := mergeMap stored.credentials provider.credentials
      config := mergeMap stored.config provider.config } := by
  unfold updateProviderRecord at written
  split at written
  · cases written
  · cases existing with
    | none => cases written
    | some stored =>
      refine ⟨stored, rfl, ?_⟩
      simp only at written
      split at written
      · cases written
      · obtain ⟨_, -, written⟩ := Results.ok_of_bind written
        exact (Except.ok.inj written).symm

theorem plan_some {call : ProviderCall} {existing : Option Provider} {updated : Provider}
    (planned : providerProtocol.plan call existing = some updated) :
    ∃ provider stored, call = .update provider ∧ existing = some stored ∧ updated = { stored with
      credentials := mergeMap stored.credentials provider.credentials
      config := mergeMap stored.config provider.config } := by
  cases call with
  | update provider =>
    cases outcome : updateProviderRecord provider existing with
    | error problem =>
      simp only [providerProtocol, outcome] at planned
      cases planned
    | ok value =>
      simp only [providerProtocol, outcome] at planned
      cases planned
      obtain ⟨stored, same, updated⟩ := updateProviderRecord_ok outcome
      exact ⟨provider, stored, rfl, same, updated⟩
  | delete => cases planned

/-! What the calls leave behind. -/

namespace Providers

abbrev ProviderState := State ProviderCall Provider

/-- The runs of calls on a provider that exists. -/
def run (first : Provider) (events : List (Event ProviderCall)) : ProviderState :=
  Machine.run (step providerProtocol) ⟨some first, [], []⟩ events

/-- The two maps of a provider. -/
inductive Part where
  | credentials
  | config

def entries (provider : Provider) : Part → StringMap String
  | .credentials => provider.credentials
  | .config => provider.config

/-- Two updates that have no key in common. -/
def Apart (first second : ProviderCall) : Prop :=
  ∀ one two, first = .update one → second = .update two →
    ∀ (part : Part) (key : String), key ∈ entries one part → key ∉ entries two part

def AllApart (state : ProviderState) : Prop := state.calls.Pairwise fun first second => Apart first.call second.call

/-- A delete that returned true. -/
def Removal (change : Change ProviderCall Provider) : Prop := change.before.isSome ∧ change.after = none

/-- An update that has returned `Ok`. -/
def Updated (state : ProviderState) (provider : Provider) : Prop :=
  ∃ caller began : Nat, state.calls[caller]? = some ⟨.update provider, began, .returned true⟩

structure NotLost (first : Provider) (state : ProviderState) : Prop where
  kept : (∀ change ∈ state.log, ¬Removal change) → ∃ stored, state.record = some stored ∧
    (∀ provider, Updated state provider → ∀ part key value, (entries provider part).lookup key = some value →
      (entries stored part).lookup key = sent value) ∧
    ∀ part key, (∀ provider, Updated state provider → key ∉ entries provider part) →
      (entries stored part).lookup key = (entries first part).lookup key
  gone : (∃ change ∈ state.log, Removal change) → state.record = none

/-- A serial history of updates, from the record it began with. -/
structure Merged (first : Provider) (log : List (Change ProviderCall Provider)) (stored : Provider) : Prop where
  written : ∀ change ∈ log, ∃ provider, change.call = .update provider ∧ change.after.isSome
  sent : ∀ change ∈ log, ∀ provider, change.call = .update provider → ∀ part key value,
    (entries provider part).lookup key = some value → (entries stored part).lookup key = sent value
  other : ∀ part key, (∀ change ∈ log, ∀ provider, change.call = .update provider → key ∉ entries provider part) →
    (entries stored part).lookup key = (entries first part).lookup key

theorem lookup_merged (stored provider : Provider) (part : Part) (key : String) :
    (entries { stored with
      credentials := mergeMap stored.credentials provider.credentials
      config := mergeMap stored.config provider.config } part).lookup key =
      (((entries provider part).lookup key).map Server.sent).getD ((entries stored part).lookup key) := by
  cases part with
  | credentials => exact lookup_mergeMap stored.credentials provider.credentials key
  | config => exact lookup_mergeMap stored.config provider.config key

variable {first : Provider} {log : List (Change ProviderCall Provider)} {record : Option Provider}
  {guard : ProviderCall → Option Provider → List (Change ProviderCall Provider) → Prop}

theorem merged_of_serial (serial : Serial providerProtocol guard (some first) log record)
    (apart : log.Pairwise fun one two => one.after.isSome → two.after.isSome → Apart one.call two.call)
    (kept : ∀ change ∈ log, ¬Removal change) :
    ∃ stored, record = some stored ∧ Merged first log stored := by
  induction serial with
  | nil => exact ⟨first, rfl, by simp, by simp, fun _ _ _ => rfl⟩
  | @write log before caller began call value prior planned informed ih =>
    obtain ⟨earlier, -, later⟩ := List.pairwise_append.mp apart
    obtain ⟨stored, rfl, merged⟩ := ih earlier fun change member => kept change (List.mem_append_left _ member)
    obtain ⟨provider, _, rfl, same, rfl⟩ := plan_some planned
    cases same
    refine ⟨_, rfl, ?_, ?_, ?_⟩
    · intro change member
      rcases List.mem_append.mp member with old | new
      · exact merged.written change old
      · cases List.mem_singleton.mp new
        exact ⟨provider, rfl, rfl⟩
    · intro change member update updates part key value found
      rw [lookup_merged]
      rcases List.mem_append.mp member with old | new
      · -- the key was sent by an earlier update, so this one leaves it alone
        obtain ⟨_, -, wrote⟩ := merged.written change old
        have unsent : key ∉ entries provider part :=
          later change old _ (List.mem_singleton_self _) wrote rfl update provider updates rfl part key
            (AList.lookup_isSome.mp (by rw [found]; rfl))
        rw [AList.lookup_eq_none.mpr unsent]
        exact merged.sent change old update updates part key value found
      · cases List.mem_singleton.mp new
        cases updates
        rw [found]
        rfl
    · intro part key unsent
      rw [lookup_merged]
      have here := unsent _ (List.mem_append_right _ (List.mem_singleton_self _)) provider rfl
      rw [AList.lookup_eq_none.mpr here]
      exact merged.other part key fun change member => unsent change (List.mem_append_left _ member)
  | @remove log before caller began call prior ih =>
    obtain ⟨earlier, -, -⟩ := List.pairwise_append.mp apart
    obtain ⟨stored, rfl, -⟩ := ih earlier fun change member => kept change (List.mem_append_left _ member)
    exact absurd ⟨rfl, rfl⟩ (kept _ (List.mem_append_right _ (List.mem_singleton_self _)))

/-- Nothing is planned on a provider that does not exist. -/
theorem gone_of_serial {initial : Option Provider} (serial : Serial providerProtocol guard initial log record)
    (removed : ∃ change ∈ log, Removal change) : record = none := by
  induction serial with
  | nil => simp at removed
  | write prior planned informed ih =>
    obtain ⟨change, member, removal⟩ := removed
    rcases List.mem_append.mp member with old | new
    · obtain ⟨_, _, _, exists_, -⟩ := plan_some planned
      rw [ih ⟨change, old, removal⟩] at exists_
      cases exists_
    · cases List.mem_singleton.mp new
      cases removal.2
  | remove prior ih => rfl

theorem Apart.symm {one two : ProviderCall} (apart : Apart one two) : Apart two one := by
  intro second first isSecond isFirst part key member found
  exact apart first second isFirst isSecond part key found member

theorem apart_of_callers {state : ProviderState} (apart : AllApart state) {one two : Nat}
    {first second : Running ProviderCall Provider} (foundFirst : state.calls[one]? = some first)
    (foundSecond : state.calls[two]? = some second) (differ : one ≠ two) : Apart first.call second.call := by
  have ordered := List.pairwise_iff_getElem.mp apart
  obtain ⟨boundFirst, atFirst⟩ := List.getElem?_eq_some_iff.mp foundFirst
  obtain ⟨boundSecond, atSecond⟩ := List.getElem?_eq_some_iff.mp foundSecond
  rcases Nat.lt_or_gt_of_ne differ with before | after
  · have apart := ordered one two boundFirst boundSecond before
    rwa [atFirst, atSecond] at apart
  · have apart := ordered two one boundSecond boundFirst after
    rw [atFirst, atSecond] at apart
    exact apart.symm

theorem apart_log {state : ProviderState} (traced : Traced providerProtocol state) (apart : AllApart state) :
    state.log.Pairwise fun one two => one.after.isSome → two.after.isSome → Apart one.call two.call := by
  refine traced.once.imp_of_mem ?_
  intro one two memberOne memberTwo once writtenOne writtenTwo
  obtain ⟨_, _, foundOne, -⟩ := traced.owned one memberOne writtenOne
  obtain ⟨_, _, foundTwo, -⟩ := traced.owned two memberTwo writtenTwo
  exact apart_of_callers apart foundOne foundTwo (once writtenOne writtenTwo)

theorem Updated.written {state : ProviderState} (traced : Traced providerProtocol state) {provider : Provider}
    (updated : Updated state provider) : ∃ change ∈ state.log, change.call = .update provider := by
  obtain ⟨caller, began, found⟩ := updated
  obtain ⟨change, member, -, same, -⟩ := traced.written caller _ began _ found rfl
  exact ⟨change, member, same⟩

theorem updated_of_written {state : ProviderState} (traced : Traced providerProtocol state)
    {change : Change ProviderCall Provider} (member : change ∈ state.log) (wrote : change.after.isSome)
    {provider : Provider} (updates : change.call = .update provider) : Updated state provider := by
  obtain ⟨began, stage, found, past⟩ := traced.owned change member wrote
  rw [updates] at found
  refine ⟨change.caller, began, ?_⟩
  cases stage with
  | fresh => cases past
  | planned since value => cases past
  | removing => cases traced.removes _ _ _ found
  | returned wrote =>
    cases past
    exact found

theorem notLost_of_serial {state : ProviderState} (serial : Serial providerProtocol guard (some first) state.log state.record)
    (traced : Traced providerProtocol state) (apart : AllApart state) : NotLost first state where
  kept unremoved := by
    obtain ⟨stored, same, merged⟩ := merged_of_serial serial (apart_log traced apart) unremoved
    refine ⟨stored, same, ?_, ?_⟩
    · intro provider updated part key value found
      obtain ⟨change, member, updates⟩ := updated.written traced
      exact merged.sent change member provider updates part key value found
    · intro part key unsent
      apply merged.other part key
      intro change member provider updates
      obtain ⟨_, -, wrote⟩ := merged.written change member
      exact unsent provider (updated_of_written traced member wrote updates)
  gone := gone_of_serial serial

/-- No update is lost in a run where each write finds the record that its call has read. -/
theorem updates_kept (first : Provider) (events : List (Event ProviderCall))
    (along : Machine.Along (step providerProtocol) Undisturbed ⟨some first, [], []⟩ events)
    (apart : AllApart (run first events)) : NotLost first (run first events) :=
  notLost_of_serial (sound_of_undisturbed along).serial (traced_run events) apart

def github : Provider where
  id := "p-1"
  name := "github"
  type := "github"
  credentials := AList.singleton "GITHUB_TOKEN" "old"

/-- An update of the provider `github` that sends one credential. -/
def sends (key value : String) : ProviderCall :=
  .update { id := "", name := "github", type := "", credentials := AList.singleton key value }

theorem apart_pair {key other value second : String} {began start : Nat} {stage later : Stage Provider}
    (differ : other ≠ key) {state : ProviderState}
    (calls : state.calls = [⟨sends key value, began, stage⟩, ⟨sends other second, start, later⟩]) :
    AllApart state := by
  rw [AllApart, calls, List.pairwise_pair]
  rintro _ _ ⟨⟩ ⟨⟩ part name member
  cases part with
  | credentials =>
    simp only [entries, AList.mem_keys, AList.singleton, AList.keys, List.keys, List.map_cons, List.map_nil,
      List.mem_singleton] at member ⊢
    rw [member]
    exact differ.symm
  | config => cases member

def inTurn : List (Event ProviderCall) :=
  [.start (sends "API_KEY" "k"), .start (sends "GITHUB_TOKEN" ""), .advance 0, .advance 0, .advance 1, .advance 1]

theorem inTurn_kept :
    Machine.Along (step providerProtocol) Undisturbed ⟨some github, [], []⟩ inTurn ∧ AllApart (run github inTurn) ∧
      NotLost github (run github inTurn) := by
  have along : Machine.Along (step providerProtocol) Undisturbed ⟨some github, [], []⟩ inTurn := by decide +kernel
  have apart : AllApart (run github inTurn) := apart_pair (by decide) rfl
  exact ⟨along, apart, updates_kept github inTurn along apart⟩

/-- Both updates read the provider before either writes it. -/
def straddling : List (Event ProviderCall) :=
  [.start (sends "API_KEY" "k"), .start (sends "OTHER_KEY" "o"), .advance 0, .advance 1, .advance 1, .advance 0]

/-- The second update returned `Ok` and its key is not stored. -/
theorem straddling_loses : ¬∀ (first : Provider) (events : List (Event ProviderCall)),
    AllApart (run first events) → NotLost first (run first events) := by
  intro claim
  have apart : AllApart (run github straddling) := apart_pair (by decide) rfl
  have unremoved : ∀ change ∈ (run github straddling).log, ¬Removal change := by
    intro change member removal
    have written : (run github straddling).log.all (·.after.isSome) = true := by decide +kernel
    have some := List.all_eq_true.mp written change member
    rw [removal.2] at some
    cases some
  obtain ⟨stored, same, kept, -⟩ := (claim github straddling apart).kept unremoved
  have found := kept _ ⟨1, 0, rfl⟩ .credentials "OTHER_KEY" "o" rfl
  have lost : ((run github straddling).record.map fun stored => stored.credentials.lookup "OTHER_KEY") = some none := by
    decide +kernel
  rw [same, Option.map_some] at lost
  rw [entries, Option.some.inj lost] at found
  exact absurd found (by decide)

end Providers

end OpenShell.Server
