import OpenShell.Lib.Machine
import OpenShell.Router.Backend
import OpenShell.Server.InferenceRoutes

namespace OpenShell.Sandbox

open Router Inference
open OpenShell.Server (GetInferenceBundleResponse)

/-! The routes of the sandbox: where they come from, and how the two caches follow the bundles of the gateway. -/

def sandboxSystemRouteName : String := "sandbox-system"

def routeTimeout (timeoutSecs : UInt64) : Nat := if timeoutSecs = 0 then defaultRouteTimeout else timeoutSecs.toNat

def bundleToResolvedRoutes (bundle : GetInferenceBundleResponse) : List ResolvedRoute :=
  bundle.routes.map fun route =>
    { name := route.name, endpoint := route.baseUrl, model := route.modelId, apiKey := route.apiKey,
      protocols := route.protocols, auth := (authForProviderType route.providerType).1,
      defaultHeaders := (authForProviderType route.providerType).2,
      timeoutSecs := routeTimeout route.timeoutSecs }

structure RouteCaches where
  user : List ResolvedRoute
  system : List ResolvedRoute

def partitionRoutes (routes : List ResolvedRoute) : RouteCaches where
  user := routes.filter fun route => route.name ≠ sandboxSystemRouteName
  system := routes.filter fun route => route.name = sandboxSystemRouteName

def cachesOf (bundle : GetInferenceBundleResponse) : RouteCaches := partitionRoutes (bundleToResolvedRoutes bundle)

/-! At the start. -/

/-- What is read at the start: the routes file, the environment and the first bundle. -/
structure RouteInputs where
  sandboxId : Option String
  endpoint : Option String
  routesFile : Option String
  load : String → Except String (List RouteConfig)
  env : String → Option String
  fetch : Except String GetInferenceBundleResponse

/-- Between two bundles the task has still to write both caches, or the second one. -/
inductive RefreshStage where
  | waiting
  | writesUser (caches : RouteCaches)
  | writesSystem (system : List ResolvedRoute)

/-- The task with the caches that it shares with the requests, the bundles it was given, and those whose routes it has
taken over. -/
structure RouteRefresh where
  caches : RouteCaches
  revision : Option String
  stage : RefreshStage := .waiting
  offered : List GetInferenceBundleResponse
  adopted : List GetInferenceBundleResponse

inductive RefreshEvent where
  | fetched (result : Except String GetInferenceBundleResponse)
  | writes

namespace RouteRefresh

def begin (bundle : GetInferenceBundleResponse) : RouteRefresh where
  caches := cachesOf bundle
  revision := some bundle.revision
  offered := [bundle]
  adopted := [bundle]

/-- The next step of the task. It fetches only when both caches are written. -/
def step (refresh : RouteRefresh) (event : RefreshEvent) : RouteRefresh :=
  match event, refresh.stage with
  | .fetched (.ok bundle), .waiting =>
    if refresh.revision = some bundle.revision then { refresh with offered := refresh.offered ++ [bundle] }
    else
      { refresh with
        revision := some bundle.revision
        stage := .writesUser (cachesOf bundle)
        offered := refresh.offered ++ [bundle]
        adopted := refresh.adopted ++ [bundle] }
  | .writes, .writesUser caches =>
    { refresh with caches := { refresh.caches with user := caches.user }, stage := .writesSystem caches.system }
  | .writes, .writesSystem system =>
    { refresh with caches := { refresh.caches with system := system }, stage := .waiting }
  | _, _ => refresh

def run (first : GetInferenceBundleResponse) (events : List RefreshEvent) : RouteRefresh :=
  Machine.run step (begin first) events

/-- Before the caches are written they are those of an older bundle, between the writes only the routes of users are
of the newest one. -/
def Shows (refresh : RouteRefresh) (earlier : List GetInferenceBundleResponse) (newest : GetInferenceBundleResponse) :
    Prop :=
  match refresh.stage with
  | .waiting => refresh.caches = cachesOf newest
  | .writesUser caches => caches = cachesOf newest ∧ ∃ older, earlier.getLast? = some older ∧
      refresh.caches = cachesOf older
  | .writesSystem system => system = (cachesOf newest).system ∧ ∃ older, earlier.getLast? = some older ∧
      refresh.caches = ⟨(cachesOf newest).user, (cachesOf older).system⟩

/-- The newest bundle that was taken over has the revision of the last one that was given. -/
structure Follows (refresh : RouteRefresh) (earlier : List GetInferenceBundleResponse)
    (newest : GetInferenceBundleResponse) : Prop where
  adopted : refresh.adopted = earlier ++ [newest]
  sublist : refresh.adopted.Sublist refresh.offered
  revision : refresh.revision = some newest.revision
  last : refresh.offered.getLast?.map (·.revision) = some newest.revision
  apart : (refresh.adopted.map (·.revision)).IsChain (· ≠ ·)
  shows : refresh.Shows earlier newest

theorem follows_step {refresh : RouteRefresh} {earlier : List GetInferenceBundleResponse}
    {newest : GetInferenceBundleResponse} (follows : refresh.Follows earlier newest) (event : RefreshEvent) :
    ∃ earlier newest, (refresh.step event).Follows earlier newest := by
  obtain ⟨caches, revision, stage, offered, adopted⟩ := refresh
  obtain ⟨same, sublist, current, last, apart, shows⟩ := follows
  have taken : adopted = earlier ++ [newest] := same
  cases stage with
  | waiting =>
    cases event with
    | writes => exact ⟨earlier, newest, same, sublist, current, last, apart, shows⟩
    | fetched result =>
      cases result with
      | error problem => exact ⟨earlier, newest, same, sublist, current, last, apart, shows⟩
      | ok bundle =>
        simp only [step]
        split
        · rename_i unchanged
          refine ⟨earlier, newest, same, sublist.trans (List.sublist_append_left _ _), current, ?_, apart, shows⟩
          rw [List.getLast?_concat, Option.map_some, ← unchanged]
          exact current
        · rename_i changed
          refine ⟨adopted, bundle, rfl, sublist.append (List.Sublist.refl _), rfl, ?_, ?_, ?_⟩
          · rw [List.getLast?_concat]
            rfl
          · rw [List.map_append, List.isChain_append]
            refine ⟨apart, List.isChain_singleton _, ?_⟩
            intro before held after next
            cases next
            simp only [taken, List.map_append, List.map_singleton, List.getLast?_concat] at held
            cases held
            intro equal
            exact changed (current.trans (congrArg some equal))
          · exact ⟨rfl, newest, by rw [taken, List.getLast?_concat], shows⟩
  | writesUser pending =>
    cases event with
    | fetched result =>
      cases result <;> exact ⟨earlier, newest, same, sublist, current, last, apart, shows⟩
    | writes =>
      obtain ⟨own, older, before, held⟩ := shows
      refine ⟨earlier, newest, same, sublist, current, last, apart, ?_⟩
      subst own
      subst held
      exact ⟨rfl, older, before, rfl⟩
  | writesSystem pending =>
    cases event with
    | fetched result =>
      cases result <;> exact ⟨earlier, newest, same, sublist, current, last, apart, shows⟩
    | writes =>
      obtain ⟨own, older, before, held⟩ := shows
      refine ⟨earlier, newest, same, sublist, current, last, apart, ?_⟩
      subst own
      subst held
      rfl

theorem follows_run (first : GetInferenceBundleResponse) (events : List RefreshEvent) :
    ∃ earlier newest, (run first events).Follows earlier newest := by
  have start : ∃ earlier newest, (begin first).Follows earlier newest :=
    ⟨[], first, rfl, List.Sublist.refl _, rfl, rfl, List.isChain_singleton _, rfl⟩
  refine Machine.run_invariant (fun refresh : RouteRefresh => ∃ earlier newest, refresh.Follows earlier newest) ?_ start
  intro refresh event _ held
  obtain ⟨earlier, newest, follows⟩ := held
  exact follows_step follows event

/-- Through every run of the task and the requests beside it, the caches show the newest bundle that was taken over, or
the one before it until they are written. It has the revision of the last bundle that was given. -/
theorem caches_follow (first : GetInferenceBundleResponse) (events : List RefreshEvent) :
    ∃ earlier newest, (run first events).Follows earlier newest :=
  follows_run first events

/-! Where the routes of a context come from. -/

/-- A route of the file, with the key that stands there or in the environment, or one of a bundle that was fetched. -/
inductive Supplied (inputs : RouteInputs) (events : List RefreshEvent) : ResolvedRoute → Prop
  | file {path : String} {config : List RouteConfig} {given : RouteConfig} {route : ResolvedRoute}
      (named : inputs.routesFile = some path) (loaded : inputs.load path = .ok config) (listed : given ∈ config)
      (resolved : given.resolve inputs.env = .ok route) : Supplied inputs events route
  | bundle {bundle : GetInferenceBundleResponse} {route : ResolvedRoute} (unnamed : inputs.routesFile = none)
      (fetched : inputs.fetch = .ok bundle ∨ .fetched (.ok bundle) ∈ events)
      (listed : route ∈ bundleToResolvedRoutes bundle) : Supplied inputs events route

section Source

variable {source : ResolvedRoute → Prop} {refresh : RouteRefresh} {inputs : RouteInputs} {events : List RefreshEvent}

/-- A route of a bundle authenticates as its provider type calls for. -/
theorem auth_of_bundled {bundle : GetInferenceBundleResponse} {route : ResolvedRoute}
    (listed : route ∈ bundleToResolvedRoutes bundle) : ∃ given ∈ bundle.routes, route.name = given.name ∧
      route.endpoint = given.baseUrl ∧ route.model = given.modelId ∧ route.apiKey = given.apiKey ∧
      route.protocols = given.protocols ∧
      authForProviderType given.providerType = (route.auth, route.defaultHeaders) := by
  obtain ⟨given, inside, rfl⟩ := List.mem_map.mp listed
  refine ⟨given, inside, rfl, rfl, rfl, rfl, rfl, ?_⟩
  simp only [Prod.mk.eta]

theorem Supplied.profiled {route : ResolvedRoute} (supplied : Supplied inputs events route) : route.Profiled := by
  cases supplied with
  | file _ _ _ resolved => exact profiled_of_resolve resolved
  | bundle _ _ listed =>
    obtain ⟨given, _, _, _, _, _, _, auth⟩ := auth_of_bundled listed
    exact ⟨given.providerType, auth⟩

end Source

theorem user_route {first : GetInferenceBundleResponse} {events : List RefreshEvent} {route : ResolvedRoute}
    (cached : route ∈ (run first events).caches.user) :
    ∃ bundle ∈ (run first events).adopted, route ∈ (cachesOf bundle).user := by
  obtain ⟨earlier, newest, follows⟩ := follows_run first events
  have own : newest ∈ (run first events).adopted := by
    rw [follows.adopted]
    exact List.mem_append_right _ (List.mem_singleton_self _)
  have shows := follows.shows
  unfold Shows at shows
  split at shows
  · exact ⟨newest, own, by rwa [shows] at cached⟩
  · obtain ⟨_, older, before, held⟩ := shows
    refine ⟨older, ?_, by rwa [held] at cached⟩
    rw [follows.adopted]
    exact List.mem_append_left _ (List.mem_of_getLast? before)
  · obtain ⟨_, older, _, held⟩ := shows
    exact ⟨newest, own, by rwa [held] at cached⟩

theorem user_route_of_bundle {bundle : GetInferenceBundleResponse} {route : ResolvedRoute}
    (member : route ∈ (cachesOf bundle).user) : ∃ given ∈ bundle.routes, given.name ≠ sandboxSystemRouteName ∧
      route.endpoint = given.baseUrl ∧ route.model = given.modelId ∧ route.apiKey = given.apiKey ∧
      route.protocols = given.protocols ∧
      (route.auth, route.defaultHeaders) = authForProviderType given.providerType := by
  obtain ⟨listed, named⟩ := List.mem_filter.mp member
  obtain ⟨given, inside, sameName, endpoint, model, apiKey, protocols, auth⟩ := auth_of_bundled listed
  rw [sameName] at named
  exact ⟨given, inside, by simpa using named, endpoint, model, apiKey, protocols, auth.symm⟩

/-- A bundle that the gateway has put together from its store. -/
def FromGateway (bundle : GetInferenceBundleResponse) (cluster : Server.RouteReads) : Prop :=
  ∃ revisionOf nowMs system, Server.resolveInferenceBundle revisionOf nowMs cluster system = .ok bundle

/-- The headers that tell who calls: those of the caller are taken out, and the key of the provider is put in as its
profile says. -/
def CarriesKey (sent : BackendRequest) (provider : Server.Provider) (key : String) : Prop :=
  (∃ name, provider.credentials.lookup name = some key) ∧
    ∀ name, shouldStripRequestHeader name = true → values name sent.headers =
      match (authForProviderType provider.type).1 with
      | .bearer =>
        if eqIgnoreAsciiCase "authorization".toList name then ["Bearer ".toList ++ key.toList] else []
      | .custom header => if eqIgnoreAsciiCase header.toList name then [key.toList] else []

/-- Whenever a request of a user is routed while the caches are refreshed, it leaves with a key of the provider that
was configured for users when a bundle was made, for the model that was configured, and for no system route. -/
theorem user_request_served (codec : JsonCodec) (client : BackendRequest → Except SendError BackendResponse)
    (patterns : List InferenceApiPattern) (first : GetInferenceBundleResponse) (events : List RefreshEvent)
    (request : ParsedHttpRequest) (sent : BackendRequest)
    (made : ∀ bundle ∈ (run first events).adopted, ∃ cluster, FromGateway bundle cluster)
    (left : sentFor codec client patterns (run first events).caches.user request = some sent) :
    ∃ bundle ∈ (run first events).adopted, ∃ cluster route provider config,
      FromGateway bundle cluster ∧ route ∈ bundle.routes ∧ route.name = Server.clusterInferenceRouteName ∧
      Server.Served cluster route provider config ∧ CarriesKey sent provider route.apiKey ∧
      sent.url = buildBackendUrl route.baseUrl.toList (normalizeInferencePath request.path) ∧
      ∀ json, codec.parse request.body = some json → json.asObject.isSome = true →
        ∃ written, sent.body = codec.render written ∧ written.get "model" = some (.string config.modelId) := by
  have profiled : ∀ route ∈ (run first events).caches.user, route.Profiled := by
    intro route cached
    obtain ⟨bundle, _, inside⟩ := user_route cached
    obtain ⟨given, _, _, _, _, _, _, auth⟩ := user_route_of_bundle inside
    exact ⟨given.providerType, auth.symm⟩
  obtain ⟨pattern, target, _, found, _, url, headers, body, _⟩ :=
    leavesAs_of_sentFor profiled left
  obtain ⟨bundle, adopted, inside⟩ := user_route (List.mem_of_find?_eq_some found)
  obtain ⟨route, listed, named, endpoint, model, key, _, auth⟩ := user_route_of_bundle inside
  obtain ⟨cluster, revisionOf, nowMs, system, resolved⟩ := made bundle adopted
  rcases (Server.bundle_served resolved).2.2 route listed with ⟨own, provider, config, served⟩ | ⟨own, _⟩
  · refine ⟨bundle, adopted, cluster, route, provider, config, ⟨revisionOf, nowMs, system, resolved⟩, listed, own,
      served, ⟨served.key, ?_⟩, by rw [url, endpoint], ?_⟩
    · intro name stripped
      have same : target.auth = (authForProviderType provider.type).1 := by
        rw [← authForProviderType_normalized, ← served.type, ← auth]
      rw [headers, if_pos stripped, ← same]
      unfold credential
      rw [key]
      cases target.auth <;> rfl
    · intro json parsed isObject
      obtain ⟨written, rendered, set, _⟩ := body json parsed
      refine ⟨written, rendered, ?_⟩
      rw [set isObject, model, served.model.1]
  · exact absurd own named

/-- The store before a route is set, and after. -/
def unset : Server.RouteReads where
  route := .ok none
  provider _ := .ok none

def configured : Server.RouteReads where
  route := .ok (some ⟨"r-1", "inference.local", some ⟨"openai-dev", "gpt-4o", 0⟩, 1⟩)
  provider name := .ok (if name = "openai-dev" then some Server.InferenceRoutes.openaiDev else none)

def emptyBundle : GetInferenceBundleResponse := ⟨[], "0", 0⟩

def openaiBundle : GetInferenceBundleResponse where
  routes := [⟨"inference.local", "https://api.openai.com/v1", "gpt-4o", "sk-test", openaiProtocols, "openai", 0⟩]
  revision := "1"
  generatedAtMs := 5000

def chat : ParsedHttpRequest where
  method := "POST".toList
  path := "/v1/chat/completions".toList
  headers := [("Authorization".toList, "Bearer unused".toList)]
  body := []

def refreshed : List RefreshEvent := [.fetched (.ok openaiBundle), .writes]

theorem chat_served : ∃ sent provider key,
    sentFor smallCodec (fun _ => .error .connect) defaultPatterns (run emptyBundle refreshed).caches.user chat =
      some sent ∧ CarriesKey sent provider key := by
  have leaves : (sentFor smallCodec (fun _ => .error .connect) defaultPatterns
      (run emptyBundle refreshed).caches.user chat).isSome = true := by decide
  have made : ∀ bundle ∈ (run emptyBundle refreshed).adopted, ∃ cluster, FromGateway bundle cluster := by
    have two : (run emptyBundle refreshed).adopted = [emptyBundle, openaiBundle] := rfl
    rw [two]
    intro bundle member
    rcases List.mem_pair.mp member with rfl | rfl
    · exact ⟨unset, fun _ => "0", 0, unset, rfl⟩
    · exact ⟨configured, fun _ => "1", 5000, unset, rfl⟩
  obtain ⟨sent, left⟩ := Option.isSome_iff_exists.mp leaves
  obtain ⟨_, _, _, route, provider, _, _, _, _, _, carries, _⟩ :=
    user_request_served smallCodec _ _ emptyBundle refreshed chat sent made left
  exact ⟨sent, provider, route.apiKey, left, carries⟩

end RouteRefresh

end OpenShell.Sandbox
