import OpenShell.Lib.Machine
import OpenShell.Router.Routes
import OpenShell.Server.Objects
import OpenShell.Server.Providers

namespace OpenShell.Server

open Router

/-! The inference routes of the gateway: how a route is set, through calls that overlap, and the bundle that sandboxes
fetch. -/

structure ClusterInferenceConfig where
  providerName : String
  modelId : String
  timeoutSecs : UInt64
deriving DecidableEq

structure InferenceRoute where
  id : String
  name : String
  config : Option ClusterInferenceConfig
  version : UInt64
deriving DecidableEq

structure SetClusterInferenceRequest where
  providerName : String
  modelId : String
  routeName : String
  noVerify : Bool
  timeoutSecs : UInt64

def clusterInferenceRouteName : String := "inference.local"

def sandboxSystemRouteName : String := "sandbox-system"

def effectiveRouteName (name : String) : Except Status String :=
  let trimmed := String.ofList (Text.trim name.toList)
  if trimmed = "" ∨ trimmed = "inference.local" then .ok clusterInferenceRouteName
  else if trimmed = "sandbox-system" then .ok sandboxSystemRouteName
  else .error (invalidArgument ("unknown route_name '" ++ trimmed ++
    "'; expected 'inference.local' or 'sandbox-system'"))

/-! The route to a provider. -/

/-- `trim().is_empty()`. -/
def isBlank (text : String) : Bool := (Text.trim text.toList).isEmpty

def usable (value : Option String) : Option String := value.filter fun text => !isBlank text

def findProviderApiKey (provider : Provider) (preferredKeyNames : List String) : Option String :=
  match preferredKeyNames.findSome? fun key => usable (provider.credentials.lookup key) with
  | some value => some value
  | none =>
    (provider.credentials.keys.mergeSort fun first second => first ≤ second).findSome? fun key =>
      usable (provider.credentials.lookup key)

def findProviderConfigValue (provider : Provider) (preferredKeys : List String) : Option String :=
  preferredKeys.findSome? fun key => usable (provider.config.lookup key)

structure ResolvedProviderRoute where
  providerType : String
  route : Router.ResolvedRoute

def resolveProviderRoute (provider : Provider) : Except Status ResolvedProviderRoute := do
  let providerType := normalized provider.type
  match profileFor providerType with
  | none => throw (invalidArgument ("provider '" ++ provider.name ++ "' has unsupported type '" ++ providerType ++
      "' for cluster inference (supported: openai, anthropic, nvidia)"))
  | some profile =>
    match findProviderApiKey provider profile.credentialKeyNames with
    | none => throw (invalidArgument ("provider '" ++ provider.name ++ "' has no usable API key credential"))
    | some apiKey =>
      let baseUrl := String.ofList (Text.trim
        ((findProviderConfigValue provider profile.baseUrlConfigKeys).getD profile.defaultBaseUrl).toList)
      if baseUrl.isEmpty then
        throw (invalidArgument ("provider '" ++ provider.name ++ "' resolved to empty base_url"))
      return { providerType
               route := { name := provider.name, endpoint := baseUrl, model := "", apiKey,
                          protocols := profile.protocols, auth := profile.auth,
                          defaultHeaders := profile.defaultHeaders, timeoutSecs := defaultRouteTimeout } }

/-! The bundle. -/

structure ResolvedRoute where
  name : String
  baseUrl : String
  modelId : String
  apiKey : String
  protocols : List String
  providerType : String
  timeoutSecs : UInt64
deriving DecidableEq

structure GetInferenceBundleResponse where
  routes : List ResolvedRoute
  revision : String
  generatedAtMs : Int

/-- What the store answers while one route is resolved: its record, and the provider of a name. -/
structure RouteReads where
  route : Except String (Option InferenceRoute)
  provider : String → Except String (Option Provider)

def resolveRouteByName (reads : RouteReads) (routeName : String) : Except Status (Option ResolvedRoute) := do
  match ← mapInternal "fetch route failed" reads.route with
  | none => return none
  | some route =>
    match route.config with
    | none => return none
    | some config =>
      if isBlank config.providerName then
        throw ⟨.failedPrecondition, "route '" ++ routeName ++ "' is missing provider_name"⟩
      if isBlank config.modelId then
        throw ⟨.failedPrecondition, "route '" ++ routeName ++ "' is missing model_id"⟩
      match ← mapInternal "fetch provider failed" (reads.provider config.providerName) with
      | none =>
        throw ⟨.failedPrecondition, "configured provider '" ++ config.providerName ++ "' was not found"⟩
      | some provider =>
        let resolved ← resolveProviderRoute provider
        return some { name := routeName, baseUrl := resolved.route.endpoint, modelId := config.modelId,
                      apiKey := resolved.route.apiKey, protocols := resolved.route.protocols,
                      providerType := resolved.providerType, timeoutSecs := config.timeoutSecs }

/-- `revisionOf` is the text of the standard hash of the routes. -/
def resolveInferenceBundle (revisionOf : List ResolvedRoute → String) (nowMs : Int) (cluster system : RouteReads) :
    Except Status GetInferenceBundleResponse := do
  let first ← resolveRouteByName cluster clusterInferenceRouteName
  let second ← resolveRouteByName system sandboxSystemRouteName
  let routes := first.toList ++ second.toList
  return { routes, revision := revisionOf routes, generatedAtMs := nowMs }

/-! What a bundle tells. -/

/-- The route leads to the provider that is configured, with a key and for the model that are stored. -/
structure Served (reads : RouteReads) (route : ResolvedRoute) (provider : Provider) (config : ClusterInferenceConfig) :
    Prop where
  configured : ∃ record, reads.route = .ok (some record) ∧ record.config = some config
  provided : reads.provider config.providerName = .ok (some provider)
  key : ∃ name, provider.credentials.lookup name = some route.apiKey
  filled : isBlank route.apiKey = false ∧ route.baseUrl ≠ "" ∧ isBlank route.modelId = false
  model : route.modelId = config.modelId ∧ route.timeoutSecs = config.timeoutSecs
  type : route.providerType = normalized provider.type
  profile : ∃ profile, profileFor route.providerType = some profile ∧ route.protocols = profile.protocols

section Bundles

variable {provider : Provider} {value : String}

theorem findSome_usable {keys : List String}
    (found : (keys.findSome? fun key => usable (provider.credentials.lookup key)) = some value) : (∃ name, provider.credentials.lookup name = some value) ∧ isBlank value = false := by
  obtain ⟨key, _, held⟩ := List.exists_of_findSome?_eq_some found
  unfold usable at held
  rw [Option.filter_eq_some_iff] at held
  exact ⟨⟨key, held.1⟩, by simpa using held.2⟩

theorem findProviderApiKey_some {keys : List String} (found : findProviderApiKey provider keys = some value) :
    (∃ name, provider.credentials.lookup name = some value) ∧ isBlank value = false := by
  unfold findProviderApiKey at found
  split at found
  · rename_i key preferred
    cases found
    exact findSome_usable preferred
  · exact findSome_usable found

theorem resolveProviderRoute_ok {resolved : ResolvedProviderRoute}
    (succeeded : resolveProviderRoute provider = .ok resolved) :
    resolved.providerType = normalized provider.type ∧
      (∃ profile, profileFor resolved.providerType = some profile ∧ resolved.route.protocols = profile.protocols) ∧
      (∃ name, provider.credentials.lookup name = some resolved.route.apiKey) ∧
      isBlank resolved.route.apiKey = false ∧ resolved.route.endpoint ≠ "" := by
  unfold resolveProviderRoute at succeeded
  simp only [bind, Except.bind, pure, Except.pure] at succeeded
  split at succeeded
  · cases succeeded
  · rename_i profile known
    split at succeeded
    · cases succeeded
    · rename_i apiKey found
      obtain ⟨stored, filled⟩ := findProviderApiKey_some found
      split at succeeded
      · cases succeeded
      · rename_i named
        cases succeeded
        exact ⟨rfl, ⟨profile, known, rfl⟩, stored, filled, by simpa using named⟩

theorem resolveRouteByName_some {reads : RouteReads} {routeName : String} {route : ResolvedRoute}
    (resolved : resolveRouteByName reads routeName = .ok (some route)) :
    route.name = routeName ∧ ∃ provider config, Served reads route provider config := by
  unfold resolveRouteByName at resolved
  simp only [bind, Except.bind, pure, Except.pure] at resolved
  split at resolved
  · cases resolved
  · rename_i found read
    split at resolved
    · cases resolved
    · rename_i record
      split at resolved
      · cases resolved
      · rename_i config configured
        split at resolved
        · cases resolved
        · split at resolved
          · cases resolved
          · rename_i named modelled
            split at resolved
            · cases resolved
            · rename_i held asked
              split at resolved
              · cases resolved
              · rename_i provider
                split at resolved
                · cases resolved
                · rename_i target known
                  cases resolved
                  obtain ⟨type, profile, key, filled, base⟩ := resolveProviderRoute_ok known
                  refine ⟨rfl, provider, config, ⟨record, ?_, configured⟩, ?_, key, ⟨filled, base, ?_⟩, ⟨rfl, rfl⟩,
                    type, profile⟩
                  · exact mapInternal_ok read
                  · exact mapInternal_ok asked
                  · simpa using modelled

/-- Each route of a bundle has its own name and leads to the provider that is configured under it. -/
theorem bundle_served {revisionOf : List ResolvedRoute → String} {nowMs : Int} {cluster system : RouteReads}
    {response : GetInferenceBundleResponse}
    (resolved : resolveInferenceBundle revisionOf nowMs cluster system = .ok response) :
    (response.routes.map ResolvedRoute.name).Nodup ∧ response.revision = revisionOf response.routes ∧
      ∀ route ∈ response.routes,
        route.name = clusterInferenceRouteName ∧ (∃ provider config, Served cluster route provider config) ∨
          route.name = sandboxSystemRouteName ∧ ∃ provider config, Served system route provider config := by
  unfold resolveInferenceBundle at resolved
  simp only [bind, Except.bind, pure, Except.pure] at resolved
  split at resolved
  · cases resolved
  · rename_i first clusterFound
    split at resolved
    · cases resolved
    · rename_i second systemFound
      cases resolved
      have firstServed : ∀ route ∈ first.toList, route.name = clusterInferenceRouteName ∧
          ∃ provider config, Served cluster route provider config := by
        intro route member
        rw [Option.mem_toList] at member
        exact resolveRouteByName_some (member ▸ clusterFound)
      have secondServed : ∀ route ∈ second.toList, route.name = sandboxSystemRouteName ∧
          ∃ provider config, Served system route provider config := by
        intro route member
        rw [Option.mem_toList] at member
        exact resolveRouteByName_some (member ▸ systemFound)
      refine ⟨?_, rfl, ?_⟩
      · cases first with
        | none => cases second <;> simp
        | some one =>
          cases second with
          | none => simp
          | some two =>
            have names : one.name ≠ two.name := by
              rw [(firstServed one (by simp)).1, (secondServed two (by simp)).1]
              decide
            simpa using names
      · intro route member
        rcases List.mem_append.mp member with inFirst | inSecond
        · exact .inl (firstServed route inFirst)
        · exact .inr (secondServed route inSecond)

end Bundles

/-! Calls that set one route. A call reads the provider, then the route, and then writes the route, and between these
other calls may do the same. Ids are never drawn twice, so the id of a route is that of no other row. -/

def requireFields (request : SetClusterInferenceRequest) : Except Status Unit := do
  if isBlank request.providerName then throw (invalidArgument "provider_name is required")
  if isBlank request.modelId then throw (invalidArgument "model_id is required")

def buildClusterInferenceConfig (provider : Provider) (modelId : String) (timeoutSecs : UInt64) :
    ClusterInferenceConfig where
  providerName := provider.name
  modelId := modelId
  timeoutSecs := timeoutSecs

/-- `get_message_by_name`: a row has the name of its provider. -/
def providerNamed (providers : List Provider) (name : String) : Option Provider :=
  providers.find? fun provider => provider.name = name

/-- The part of `upsert_cluster_inference_route` before it reads the route. `verification` is what the endpoint of the
provider answers if it is asked. -/
def configFor (request : SetClusterInferenceRequest) (providers : List Provider) (verification : Except Status Unit) :
    Except Status ClusterInferenceConfig := do
  requireFields request
  match providerNamed providers request.providerName with
  | none => throw ⟨.failedPrecondition, "provider '" ++ request.providerName ++ "' not found"⟩
  | some provider =>
    let _ ← resolveProviderRoute provider
    if !request.noVerify then verification
    return buildClusterInferenceConfig provider request.modelId request.timeoutSecs

/-- `saturating_add(1)`. -/
def nextVersion (version : UInt64) : UInt64 := if version = UInt64.ofNat (2 ^ 64 - 1) then version else version + 1

def upserted (existing : Option InferenceRoute) (drawn routeName : String) (config : ClusterInferenceConfig) :
    InferenceRoute :=
  match existing with
  | some existing =>
    { id := existing.id, name := existing.name, config := some config, version := nextVersion existing.version }
  | none => { id := drawn, name := routeName, config := some config, version := 1 }

/-- `put_message`, which replaces the row of its id and adds no second row of a name. -/
def putRoute (record : Option InferenceRoute) (route : InferenceRoute) : Except String InferenceRoute :=
  match record with
  | none => .ok route
  | some held =>
    if held.id = route.id then .ok route else .error (Store.uniqueViolation "objects.object_type, objects.name")

namespace InferenceRoutes

/-- How far a call has come. `since` counts the writes before its read of the route. -/
inductive Stage where
  | fresh
  | resolved (config : ClusterInferenceConfig)
  | planned (since : Nat) (route : InferenceRoute)
  | returned (written : Bool)

structure Calling where
  request : SetClusterInferenceRequest
  stage : Stage

/-- A write that has succeeded: who made it, the writes its call had seen, and the route. -/
structure Write where
  caller : Nat
  since : Nat
  route : InferenceRoute

structure State where
  record : Option InferenceRoute := none
  writes : List Write := []
  calls : List Calling := []

/-- A call begins, takes its next step, or returns because a statement of the store fails. `providers` are those that
the store has at that time. -/
inductive Event where
  | start (request : SetClusterInferenceRequest)
  | resolve (caller : Nat) (providers : List Provider) (verification : Except Status Unit)
  | read (caller : Nat) (drawn : String)
  | persist (caller : Nat)
  | fail (caller : Nat)

variable (routeName : String)

def State.move (state : State) (caller : Nat) (request : SetClusterInferenceRequest) (stage : Stage) : State :=
  { state with calls := state.calls.set caller ⟨request, stage⟩ }

def step (state : State) : Event → State
  | .start request =>
    -- a call for the other route, or for none, does not come here
    if effectiveRouteName request.routeName = .ok routeName then
      { state with calls := state.calls ++ [⟨request, .fresh⟩] }
    else state
  | .resolve caller providers verification =>
    match state.calls[caller]? with
    | some ⟨request, .fresh⟩ =>
      match configFor request providers verification with
      | .ok config => state.move caller request (.resolved config)
      | .error _ => state.move caller request (.returned false)
    | _ => state
  | .read caller drawn =>
    match state.calls[caller]? with
    | some ⟨request, .resolved config⟩ =>
      state.move caller request (.planned state.writes.length (upserted state.record drawn routeName config))
    | _ => state
  | .persist caller =>
    match state.calls[caller]? with
    | some ⟨request, .planned since route⟩ =>
      match putRoute state.record route with
      | .ok held =>
        { record := some held, writes := state.writes ++ [⟨caller, since, held⟩],
          calls := state.calls.set caller ⟨request, .returned true⟩ }
      | .error _ => state.move caller request (.returned false)
    | _ => state
  | .fail caller =>
    match state.calls[caller]? with
    | none => state
    | some ⟨_, .returned _⟩ => state
    | some ⟨request, _⟩ => state.move caller request (.returned false)

def run (events : List Event) : State := Machine.run (step routeName) {} events

/-- A write finds the route as its call has read it. -/
def Undisturbed (state : State) : Event → Prop
  | .persist caller => ∀ request since route, state.calls[caller]? = some ⟨request, .planned since route⟩ →
      putRoute state.record route = .ok route → since = state.writes.length
  | _ => True

/-! What the calls leave behind. -/

/-- The route that a call has read which has seen so many writes. -/
def seen (writes : List Write) (since : Nat) : Option InferenceRoute := (writes.take since).getLast?.map Write.route

/-- The request asks for the configuration, and the provider that it names has a route. -/
structure Asks (request : SetClusterInferenceRequest) (config : ClusterInferenceConfig) : Prop where
  provider : config.providerName = request.providerName
  model : config.modelId = request.modelId
  timeout : config.timeoutSecs = request.timeoutSecs
  routed : ∃ provider resolved, provider.name = request.providerName ∧ resolveProviderRoute provider = .ok resolved

def Made (request : SetClusterInferenceRequest) (before : Option InferenceRoute) (route : InferenceRoute) : Prop :=
  ∃ drawn config, Asks request config ∧ route = upserted before drawn routeName config

structure Kept (state : State) : Prop where
  named : ∀ call ∈ state.calls, effectiveRouteName call.request.routeName = .ok routeName
  last : state.record = state.writes.getLast?.map Write.route
  ids : ∀ write ∈ state.writes, ∀ held, state.record = some held → write.route.id = held.id
  once : (state.writes.map Write.caller).Nodup
  traced : ∀ (index : Nat) (write : Write), state.writes[index]? = some write → write.since ≤ index ∧
    ∃ request, state.calls[write.caller]? = some ⟨request, .returned true⟩ ∧
      Made routeName request (seen state.writes write.since) write.route
  planned : ∀ (caller : Nat) (request : SetClusterInferenceRequest) (since : Nat) (route : InferenceRoute),
    state.calls[caller]? = some ⟨request, .planned since route⟩ → since ≤ state.writes.length ∧
      Made routeName request (seen state.writes since) route
  resolved : ∀ (caller : Nat) (request : SetClusterInferenceRequest) (config : ClusterInferenceConfig),
    state.calls[caller]? = some ⟨request, .resolved config⟩ → Asks request config
  answered : ∀ (caller : Nat) (request : SetClusterInferenceRequest),
    state.calls[caller]? = some ⟨request, .returned true⟩ → ∃ write ∈ state.writes, write.caller = caller

section Runs

variable {routeName} {state : State} {request : SetClusterInferenceRequest}

theorem configFor_asks {providers : List Provider} {verification : Except Status Unit}
    {config : ClusterInferenceConfig} (made : configFor request providers verification = .ok config) :
    Asks request config := by
  unfold configFor at made
  simp only [bind, Except.bind, pure, Except.pure] at made
  split at made
  · cases made
  · split at made
    · cases made
    · rename_i provider found
      have own : provider.name = request.providerName := by simpa using List.find?_some found
      split at made
      · cases made
      · rename_i route resolved
        split at made
        · split at made
          · cases made
          · cases made
            exact ⟨own, rfl, rfl, provider, route, own, resolved⟩
        · cases made
          exact ⟨own, rfl, rfl, provider, route, own, resolved⟩

theorem seen_append {writes : List Write} {since : Nat} (early : since ≤ writes.length) (write : Write) :
    seen (writes ++ [write]) since = seen writes since := by
  unfold seen
  rw [List.take_append_of_le_length early]

theorem seen_cases {writes : List Write} {since : Nat} (early : since ≤ writes.length) :
    since = 0 ∧ seen writes since = none ∨
      ∃ before prior, since = before + 1 ∧ writes[before]? = some prior ∧ seen writes since = some prior.route := by
  cases since with
  | zero => exact .inl ⟨rfl, rfl⟩
  | succ before =>
    have inside : before < writes.length := early
    refine .inr ⟨before, writes.get ⟨before, inside⟩, rfl, by simp, ?_⟩
    unfold seen
    rw [List.getLast?_take]
    simp [inside]

theorem getElem_set_cases {calls : List Calling} {caller other : Nat} {call found : Calling}
    (held : (calls.set caller call)[other]? = some found) :
    other = caller ∧ found = call ∨ other ≠ caller ∧ calls[other]? = some found := by
  rw [List.getElem?_set] at held
  split at held
  · rename_i same
    split at held
    · exact .inl ⟨same.symm, (Option.some.inj held).symm⟩
    · cases held
  · rename_i differs
    exact .inr ⟨Ne.symm differs, held⟩

namespace Kept

theorem named_set (kept : Kept routeName state) {caller : Nat} {before : Stage}
    (found : state.calls[caller]? = some ⟨request, before⟩) (stage : Stage) :
    ∀ call ∈ state.calls.set caller ⟨request, stage⟩, effectiveRouteName call.request.routeName = .ok routeName := by
  intro call member
  rcases List.mem_or_eq_of_mem_set member with old | rfl
  · exact kept.named call old
  · exact kept.named ⟨request, before⟩ (List.mem_of_getElem? found)

/-- A call that has not yet written goes on, or gives up. -/
theorem move (kept : Kept routeName state) {caller : Nat} {before stage : Stage}
    (found : state.calls[caller]? = some ⟨request, before⟩) (unwritten : before ≠ .returned true)
    (plans : ∀ since route, stage = .planned since route → since ≤ state.writes.length ∧
      Made routeName request (seen state.writes since) route)
    (resolves : ∀ config, stage = .resolved config → Asks request config) (pending : stage ≠ .returned true) :
    Kept routeName (state.move caller request stage) := by
  refine ⟨?_, kept.last, kept.ids, kept.once, ?_, ?_, ?_, ?_⟩
  · exact kept.named_set found stage
  · intro index write stored
    obtain ⟨early, other, returned, made⟩ := kept.traced index write stored
    refine ⟨early, other, ?_, made⟩
    have apart : caller ≠ write.caller := by
      intro same
      rw [← same, found] at returned
      cases returned
      exact unwritten rfl
    show (state.calls.set caller _)[write.caller]? = _
    rw [List.getElem?_set_ne apart, returned]
  · intro other asked since route held
    rcases getElem_set_cases held with ⟨_, same⟩ | ⟨_, still⟩
    · cases same
      exact plans since route rfl
    · exact kept.planned other asked since route still
  · intro other asked config held
    rcases getElem_set_cases held with ⟨_, same⟩ | ⟨_, still⟩
    · cases same
      exact resolves config rfl
    · exact kept.resolved other asked config still
  · intro other asked held
    rcases getElem_set_cases held with ⟨_, same⟩ | ⟨_, still⟩
    · cases same
      exact absurd rfl pending
    · exact kept.answered other asked still

theorem giveUp (kept : Kept routeName state) {caller : Nat} {before : Stage}
    (found : state.calls[caller]? = some ⟨request, before⟩) (unwritten : before ≠ .returned true) :
    Kept routeName (state.move caller request (.returned false)) :=
  kept.move found unwritten (by simp) (by simp) (by simp)

theorem start (kept : Kept routeName state) (asked : SetClusterInferenceRequest)
    (named : effectiveRouteName asked.routeName = .ok routeName) :
    Kept routeName { state with calls := state.calls ++ [⟨asked, .fresh⟩] } := by
  have old : ∀ {caller : Nat} {call : Calling}, (state.calls ++ [⟨asked, .fresh⟩])[caller]? = some call →
      call.stage ≠ .fresh → state.calls[caller]? = some call := by
    intro caller call held differs
    rw [List.getElem?_append] at held
    split at held
    · exact held
    · rw [List.getElem?_singleton] at held
      split at held
      · cases held
        exact absurd rfl differs
      · cases held
  refine ⟨?_, kept.last, kept.ids, kept.once, ?_, ?_, ?_, ?_⟩
  · intro call member
    rcases List.mem_append.mp member with before | added
    · exact kept.named call before
    · rw [List.mem_singleton.mp added]
      exact named
  · intro index write stored
    obtain ⟨early, request, returned, made⟩ := kept.traced index write stored
    have inside := (List.getElem?_eq_some_iff.mp returned).1
    exact ⟨early, request, by rw [List.getElem?_append_left inside, returned], made⟩
  · intro caller request since route held
    exact kept.planned caller request since route (old held (by simp))
  · intro caller request config held
    exact kept.resolved caller request config (old held (by simp))
  · intro caller request held
    exact kept.answered caller request (old held (by simp))

theorem persist (kept : Kept routeName state) {caller since : Nat} {route held : InferenceRoute}
    (found : state.calls[caller]? = some ⟨request, .planned since route⟩)
    (put : putRoute state.record route = .ok held) :
    Kept routeName { record := some held, writes := state.writes ++ [⟨caller, since, held⟩],
                     calls := state.calls.set caller ⟨request, .returned true⟩ } := by
  obtain ⟨early, made⟩ := kept.planned caller request since route found
  have inside := (List.getElem?_eq_some_iff.mp found).1
  have same : held = route ∧ ∀ old, state.record = some old → old.id = route.id := by
    unfold putRoute at put
    split at put
    · rename_i none
      cases put
      exact ⟨rfl, fun old some => absurd (none.symm.trans some) (by simp)⟩
    · rename_i old some
      split at put
      · rename_i own
        cases put
        exact ⟨rfl, fun other also => Option.some.inj (some.symm.trans also) ▸ own⟩
      · cases put
  obtain ⟨rfl, own⟩ := same
  refine ⟨kept.named_set found _, ?_, ?_, ?_, ?_, ?_, ?_, ?_⟩
  · rw [List.getLast?_append]
    rfl
  · intro write member other now
    cases now
    rcases List.mem_append.mp member with before | last
    · cases stored : state.record with
      | none =>
        have empty := kept.last
        rw [stored] at empty
        cases writes : state.writes with
        | nil =>
          rw [writes] at before
          cases before
        | cons first rest => simp [writes] at empty
      | some old => rw [kept.ids write before old stored, own old stored]
    · rw [List.mem_singleton.mp last]
  · rw [List.map_append, List.nodup_append]
    refine ⟨kept.once, List.pairwise_singleton _ _, ?_⟩
    intro first before second last same
    obtain ⟨write, member, rfl⟩ := List.mem_map.mp before
    obtain ⟨index, stored⟩ := List.getElem?_of_mem member
    obtain ⟨_, other, returned, _⟩ := kept.traced index write stored
    rw [List.map_singleton, List.mem_singleton] at last
    rw [same, last, found] at returned
    cases returned
  · intro index write stored
    rw [List.getElem?_append] at stored
    split at stored
    · obtain ⟨before, other, returned, was⟩ := kept.traced index write stored
      rename_i bounded
      refine ⟨before, other, ?_, ?_⟩
      · have apart : caller ≠ write.caller := by
          intro same
          rw [← same, found] at returned
          cases returned
        show (state.calls.set caller _)[write.caller]? = _
        rw [List.getElem?_set_ne apart, returned]
      · rw [seen_append (by omega)]
        exact was
    · rename_i behind
      rw [List.getElem?_singleton] at stored
      split at stored
      · cases stored
        have seenBefore : since ≤ index := by omega
        refine ⟨seenBefore, request, ?_, ?_⟩
        · show (state.calls.set caller _)[caller]? = _
          rw [List.getElem?_set_self inside]
        · rw [seen_append early]
          exact made
      · cases stored
  · intro other asked stamp later stands
    rcases getElem_set_cases stands with ⟨_, differs⟩ | ⟨_, still⟩
    · cases differs
    · obtain ⟨bounded, was⟩ := kept.planned other asked stamp later still
      rw [seen_append bounded, List.length_append]
      exact ⟨by omega, was⟩
  · intro other asked config stands
    rcases getElem_set_cases stands with ⟨_, differs⟩ | ⟨_, still⟩
    · cases differs
    · exact kept.resolved other asked config still
  · intro other asked stands
    rcases getElem_set_cases stands with ⟨mine, _⟩ | ⟨_, still⟩
    · exact ⟨_, List.mem_append_right _ (List.mem_singleton_self _), mine.symm⟩
    · obtain ⟨write, member, same⟩ := kept.answered other asked still
      exact ⟨write, List.mem_append_left _ member, same⟩

theorem step (kept : Kept routeName state) (event : Event) : Kept routeName (step routeName state event) := by
  cases event with
  | start asked =>
    simp only [InferenceRoutes.step]
    split
    · rename_i named
      exact kept.start asked named
    · exact kept
  | resolve caller providers verification =>
    simp only [InferenceRoutes.step]
    split
    · rename_i asked stands
      split
      · rename_i config made
        refine kept.move stands (by simp) (by simp) ?_ (by simp)
        intro other same
        cases same
        exact configFor_asks made
      · exact kept.giveUp stands (by simp)
    · exact kept
  | read caller drawn =>
    simp only [InferenceRoutes.step]
    split
    · rename_i asked config stands
      refine kept.move stands (by simp) ?_ (by simp) (by simp)
      intro since route same
      cases same
      refine ⟨Nat.le_refl _, drawn, config, kept.resolved caller asked config stands, ?_⟩
      rw [seen, List.take_length, ← kept.last]
    · exact kept
  | persist caller =>
    simp only [InferenceRoutes.step]
    split
    · rename_i asked since route stands
      split
      · rename_i held put
        exact kept.persist stands put
      · exact kept.giveUp stands (by simp)
    · exact kept
  | fail caller =>
    simp only [InferenceRoutes.step]
    split
    · exact kept
    · exact kept
    · rename_i asked stage unreturned stands
      refine kept.giveUp stands ?_
      intro same
      exact unreturned true same

end Kept

theorem Kept.writes_named (kept : Kept routeName state) (index : Nat) : ∀ write, state.writes[index]? = some write →
    write.route.name = routeName := by
  induction index using Nat.strong_induction_on with
  | h index ih =>
    intro write stored
    obtain ⟨early, request, _, drawn, config, _, same⟩ := kept.traced index write stored
    rw [same]
    have bounded := (List.getElem?_eq_some_iff.mp stored).1
    have shown : write.since ≤ state.writes.length := by omega
    rcases seen_cases shown with ⟨_, none⟩ | ⟨before, prior, since, listed, found⟩
    · rw [none]
      rfl
    · rw [found]
      exact ih before (by omega) prior listed

theorem kept_run (routeName : String) (events : List Event) : Kept routeName (run routeName events) := by
  have start : Kept routeName {} := by
    refine ⟨?_, rfl, ?_, List.nodup_nil, ?_, ?_, ?_, ?_⟩ <;> simp
  exact Machine.run_invariant (Kept routeName) (fun state event _ kept => kept.step event) start

/-- However the calls overlap, those that answer `Ok` are those that have written, each once and what it was asked for.
The route is that of the last write, under the id of the first. -/
theorem set_writes (routeName : String) (events : List Event) :
    ((run routeName events).record = (run routeName events).writes.getLast?.map Write.route) ∧
      ((run routeName events).writes.map Write.caller).Nodup ∧
      (∀ caller, (∃ write ∈ (run routeName events).writes, write.caller = caller) ↔
        ∃ request, (run routeName events).calls[caller]? = some ⟨request, .returned true⟩) ∧
      ∀ write ∈ (run routeName events).writes,
        (∀ other ∈ (run routeName events).writes, write.route.id = other.route.id) ∧
        write.route.name = routeName ∧
        ∃ request config, (run routeName events).calls[write.caller]? = some ⟨request, .returned true⟩ ∧
          effectiveRouteName request.routeName = .ok routeName ∧
          write.route.config = some config ∧ Asks request config := by
  have kept := kept_run routeName events
  have callers : ∀ write ∈ (run routeName events).writes, ∃ (index : Nat) (request : SetClusterInferenceRequest),
      (run routeName events).writes[index]? = some write ∧
      (run routeName events).calls[write.caller]? = some ⟨request, .returned true⟩ ∧
      Made routeName request (seen (run routeName events).writes write.since) write.route := by
    intro write member
    obtain ⟨index, stored⟩ := List.getElem?_of_mem member
    obtain ⟨_, request, returned, made⟩ := kept.traced index write stored
    exact ⟨index, request, stored, returned, made⟩
  refine ⟨kept.last, kept.once, fun caller => ⟨?_, ?_⟩, fun write member => ⟨?_, ?_, ?_⟩⟩
  · intro written
    obtain ⟨write, member, rfl⟩ := written
    obtain ⟨_, request, _, returned, _⟩ := callers write member
    exact ⟨request, returned⟩
  · intro answered
    obtain ⟨request, returned⟩ := answered
    exact kept.answered caller request returned
  · intro other also
    cases record : (run routeName events).record with
    | none =>
      have empty := kept.last
      rw [record, eq_comm, Option.map_eq_none_iff, List.getLast?_eq_none_iff] at empty
      rw [empty] at member
      cases member
    | some held => rw [kept.ids write member held record, kept.ids other also held record]
  · obtain ⟨index, stored⟩ := List.getElem?_of_mem member
    exact kept.writes_named index write stored
  · obtain ⟨_, request, _, returned, drawn, config, asks, same⟩ := callers write member
    refine ⟨request, config, returned, kept.named ⟨request, _⟩ (List.mem_of_getElem? returned), ?_, asks⟩
    rw [same]
    unfold upserted
    split <;> rfl

/-! Versions count writes. -/

theorem nextVersion_le (version : UInt64) : (nextVersion version).toNat ≤ version.toNat + 1 := by
  unfold nextVersion
  split
  · exact Nat.le_succ _
  · rw [UInt64.toNat_add]
    exact Nat.mod_le _ _

theorem nextVersion_eq {version : UInt64} (short : version.toNat + 1 < 2 ^ 64) :
    (nextVersion version).toNat = version.toNat + 1 := by
  unfold nextVersion
  rw [if_neg, UInt64.toNat_add]
  · exact Nat.mod_eq_of_lt short
  · intro full
    rw [full] at short
    exact absurd short (by decide)

theorem putRoute_ok {record : Option InferenceRoute} {route held : InferenceRoute}
    (put : putRoute record route = .ok held) : held = route := by
  unfold putRoute at put
  split at put
  · cases put
    rfl
  · split at put
    · cases put
      rfl
    · cases put

theorem version_cases (kept : Kept routeName state) {index : Nat} {write : Write}
    (stored : state.writes[index]? = some write) : write.since = 0 ∧ write.route.version = 1 ∨
      ∃ before prior, write.since = before + 1 ∧ before < index ∧ state.writes[before]? = some prior ∧
        write.route.version = nextVersion prior.route.version := by
  obtain ⟨early, request, _, drawn, config, _, same⟩ := kept.traced index write stored
  have bounded := (List.getElem?_eq_some_iff.mp stored).1
  have shown : write.since ≤ state.writes.length := by omega
  rcases seen_cases shown with ⟨unseen, none⟩ | ⟨before, prior, since, listed, found⟩
  · rw [same, none]
    exact .inl ⟨unseen, rfl⟩
  · rw [same, found]
    exact .inr ⟨before, prior, since, by omega, listed, rfl⟩

theorem version_counts (kept : Kept routeName state) (index : Nat) : ∀ write, state.writes[index]? = some write →
    write.route.version.toNat ≤ index + 1 ∧ (index + 1 < 2 ^ 64 → (write.route.version.toNat = index + 1 ↔
      ∀ earlier ≤ index, ∀ other, state.writes[earlier]? = some other → other.since = earlier)) := by
  induction index using Nat.strong_induction_on with
  | h index ih =>
    intro write stored
    rcases version_cases kept stored with ⟨unseen, first⟩ | ⟨before, prior, since, early, listed, next⟩
    · rw [first]
      refine ⟨Nat.succ_le_succ (Nat.zero_le _), fun _ => ?_⟩
      constructor
      · intro counted
        have start : index = 0 := (Nat.succ.inj counted).symm
        intro earlier below other found
        have same : earlier = index := by omega
        rw [same, stored] at found
        cases found
        rw [unseen, same, start]
      · intro inTurn
        have start := inTurn index (Nat.le_refl _) write stored
        rw [unseen] at start
        rw [← start]
        rfl
    · obtain ⟨bounded, counted⟩ := ih before early prior listed
      have most := nextVersion_le prior.route.version
      rw [next]
      refine ⟨by omega, fun short => ?_⟩
      have exact := @nextVersion_eq prior.route.version (by omega)
      rw [exact]
      constructor
      · intro full
        have last : before + 1 = index := by omega
        have inTurn := (counted (by omega)).mp (by omega)
        intro earlier below other found
        by_cases here : earlier = index
        · rw [here, stored] at found
          cases found
          rw [since, last, here]
        · exact inTurn earlier (by omega) other found
      · intro inTurn
        have own := inTurn index (Nat.le_refl _) write stored
        rw [since] at own
        have full := (counted (by omega)).mpr fun earlier below => inTurn earlier (by omega)
        omega

theorem step_writes (routeName : String) (state : State) (event : Event) :
    (step routeName state event).writes = state.writes ∧ Undisturbed state event ∨
      ∃ write, (step routeName state event).writes = state.writes ++ [write] ∧
        (Undisturbed state event ↔ write.since = state.writes.length) := by
  cases event with
  | start asked =>
    simp only [step]
    split <;> exact .inl ⟨rfl, trivial⟩
  | resolve caller providers verification =>
    simp only [step]
    split
    · split <;> exact .inl ⟨rfl, trivial⟩
    · exact .inl ⟨rfl, trivial⟩
  | read caller drawn =>
    simp only [step]
    split <;> exact .inl ⟨rfl, trivial⟩
  | fail caller =>
    simp only [step]
    split <;> exact .inl ⟨rfl, trivial⟩
  | persist caller =>
    simp only [step, Undisturbed]
    split
    · rename_i request since route found
      split
      · rename_i held put
        have same := putRoute_ok put
        subst same
        refine .inr ⟨_, rfl, ?_⟩
        constructor
        · intro undisturbed
          exact undisturbed request since held found put
        · intro own other stamp route again _
          rw [found] at again
          cases again
          exact own
      · rename_i problem refused
        refine .inl ⟨rfl, ?_⟩
        intro other stamp later again put
        rw [found] at again
        cases again
        rw [refused] at put
        cases put
    · rename_i unplanned
      refine .inl ⟨rfl, ?_⟩
      intro request since route found _
      exact absurd found (unplanned request since route)

theorem along_iff (routeName : String) (state : State) (events : List Event) :
    state.writes <+: (Machine.run (step routeName) state events).writes ∧
      (Machine.Along (step routeName) Undisturbed state events ↔
        ∀ index write, state.writes.length ≤ index →
          (Machine.run (step routeName) state events).writes[index]? = some write → write.since = index) := by
  induction events generalizing state with
  | nil =>
    refine ⟨List.prefix_rfl, ?_⟩
    constructor
    · intro _ index write beyond stored
      have inside := (List.getElem?_eq_some_iff.mp stored).1
      exact absurd inside (Nat.not_lt.mpr beyond)
    · intro _
      trivial
  | cons event events ih =>
    obtain ⟨kept, later⟩ := ih (step routeName state event)
    rw [Machine.run_cons, Machine.Along, later]
    rcases step_writes routeName state event with ⟨same, undisturbed⟩ | ⟨write, more, own⟩
    · rw [same] at kept ⊢
      exact ⟨kept, by simp [undisturbed]⟩
    · rw [more] at kept ⊢
      refine ⟨(List.prefix_append _ _).trans kept, ?_⟩
      have here : (Machine.run (step routeName) (step routeName state event) events).writes[state.writes.length]? =
          some write := by
        obtain ⟨rest, whole⟩ := kept
        rw [← whole]
        simp
      rw [own, List.length_append, List.length_singleton]
      constructor
      · intro both index other beyond stored
        obtain ⟨first, rest⟩ := both
        rcases Nat.eq_or_lt_of_le beyond with same | further
        · rw [← same, here] at stored
          cases stored
          rw [first, same]
        · exact rest index other further stored
      · intro all
        exact ⟨all _ write (Nat.le_refl _) here, fun index other beyond => all index other (by omega)⟩

/-- The version of the route is the number of its writes exactly when no write came between the read and the write of
another call. -/
theorem version_counts_iff (routeName : String) (events : List Event)
    (short : (run routeName events).writes.length < 2 ^ 64) :
    (((run routeName events).record.map fun route => route.version.toNat).getD 0 =
      (run routeName events).writes.length) ↔ Machine.Along (step routeName) Undisturbed {} events := by
  have kept := kept_run routeName events
  rw [(along_iff routeName {} events).2, kept.last]
  show _ ↔ ∀ index write, 0 ≤ index → (run routeName events).writes[index]? = some write → write.since = index
  rcases List.eq_nil_or_concat (run routeName events).writes with none | ⟨earlier, last, whole⟩
  · simp [none]
  · have stored : (run routeName events).writes[earlier.length]? = some last := by
      rw [whole]
      simp
    have size : (run routeName events).writes.length = earlier.length + 1 := by
      rw [whole]
      simp
    have counted := (version_counts kept earlier.length last stored).2 (by omega)
    have top : (run routeName events).writes.getLast? = some last := by
      rw [whole]
      simp
    rw [top, size]
    simp only [Option.map_some, Option.getD_some]
    rw [counted]
    constructor
    · intro inTurn index write _ found
      have inside := (List.getElem?_eq_some_iff.mp found).1
      exact inTurn index (by omega) write found
    · intro all index _ write found
      exact all index write (Nat.zero_le _) found

def openaiDev : Provider where
  id := "p-1"
  name := "openai-dev"
  type := "openai"
  credentials := AList.singleton "OPENAI_API_KEY" "sk-test"

def asksModel (model : String) : SetClusterInferenceRequest := ⟨"openai-dev", model, "", true, 0⟩

/-- After a first call has set the route, two more read it before either of them writes. -/
def overtaken : List Event :=
  [.start (asksModel "gpt-4o"), .resolve 0 [openaiDev] (.ok ()), .read 0 "r-1", .persist 0,
    .start (asksModel "gpt-4.1"), .start (asksModel "gpt-5"), .resolve 1 [openaiDev] (.ok ()),
    .resolve 2 [openaiDev] (.ok ()), .read 1 "r-2", .read 2 "r-3", .persist 1, .persist 2]

theorem overtaken_uncounted : ¬Machine.Along (step clusterInferenceRouteName) Undisturbed {} overtaken := by
  rw [← version_counts_iff clusterInferenceRouteName overtaken (by decide)]
  decide

end Runs

end InferenceRoutes

end OpenShell.Server
