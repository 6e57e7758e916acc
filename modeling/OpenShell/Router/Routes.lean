import OpenShell.Lib.Additions
import OpenShell.Lib.Numbers

namespace OpenShell.Router

open Text Additions

/-! The inference providers, and the routes that are resolved for them. -/

inductive AuthHeader where
  | bearer
  | custom (name : String)
deriving DecidableEq

structure InferenceProviderProfile where
  providerType : String
  defaultBaseUrl : String
  protocols : List String
  credentialKeyNames : List String
  baseUrlConfigKeys : List String
  auth : AuthHeader
  defaultHeaders : List (String × String)

def openaiProtocols : List String :=
  ["openai_chat_completions", "openai_completions", "openai_responses", "model_discovery"]

def anthropicProtocols : List String := ["anthropic_messages", "model_discovery"]

def openaiProfile : InferenceProviderProfile where
  providerType := "openai"
  defaultBaseUrl := "https://api.openai.com/v1"
  protocols := openaiProtocols
  credentialKeyNames := ["OPENAI_API_KEY"]
  baseUrlConfigKeys := ["OPENAI_BASE_URL"]
  auth := .bearer
  defaultHeaders := []

def anthropicProfile : InferenceProviderProfile where
  providerType := "anthropic"
  defaultBaseUrl := "https://api.anthropic.com/v1"
  protocols := anthropicProtocols
  credentialKeyNames := ["ANTHROPIC_API_KEY"]
  baseUrlConfigKeys := ["ANTHROPIC_BASE_URL"]
  auth := .custom "x-api-key"
  defaultHeaders := [("anthropic-version", "2023-06-01")]

def nvidiaProfile : InferenceProviderProfile where
  providerType := "nvidia"
  defaultBaseUrl := "https://integrate.api.nvidia.com/v1"
  protocols := openaiProtocols
  credentialKeyNames := ["NVIDIA_API_KEY"]
  baseUrlConfigKeys := ["NVIDIA_BASE_URL"]
  auth := .bearer
  defaultHeaders := []

def profiles : List InferenceProviderProfile := [openaiProfile, anthropicProfile, nvidiaProfile]

/-- `trim().to_ascii_lowercase()`. -/
def normalized (text : String) : String := String.ofList (toAsciiLowercase (trim text.toList))

def profileFor (providerType : String) : Option InferenceProviderProfile :=
  profiles.find? fun profile => profile.providerType = normalized providerType

def authForProviderType (providerType : String) : AuthHeader × List (String × String) :=
  match profileFor providerType with
  | some profile => (profile.auth, profile.defaultHeaders)
  | none => (.bearer, [])

/-- Each protocol once, in lower case and without the blanks around it. -/
def normalizeProtocols (protocols : List String) : List String := addMissing [""] [] (protocols.map normalized)

structure ResolvedRoute where
  name : String
  endpoint : String
  model : String
  apiKey : String
  protocols : List String
  auth : AuthHeader
  defaultHeaders : List (String × String)
  timeoutSecs : Nat
deriving DecidableEq

def defaultRouteTimeout : Nat := 60

structure RouteConfig where
  name : String
  endpoint : String
  model : String
  providerType : Option String := none
  protocols : List String := []
  apiKey : Option String := none
  apiKeyEnv : Option String := none

namespace RouteConfig

variable (env : String → Option String)

def resolveApiKey (config : RouteConfig) : Except String String :=
  match config.apiKey, config.apiKeyEnv with
  | some key, _ => .ok key
  | none, some envVar =>
    match env envVar with
    | some key => .ok key
    | none => .error ("environment variable " ++ envVar ++ " not set for route '" ++ config.name ++ "'")
  | none, none => .error ("route '" ++ config.name ++ "' has neither api_key nor api_key_env")

def resolve (config : RouteConfig) : Except String ResolvedRoute := do
  let protocols := normalizeProtocols config.protocols
  if protocols.isEmpty then throw ("route '" ++ config.name ++ "' has no protocols")
  let (auth, defaultHeaders) := authForProviderType (config.providerType.getD "")
  let apiKey ← config.resolveApiKey env
  return { name := config.name, endpoint := config.endpoint, model := config.model, apiKey, protocols, auth,
           defaultHeaders, timeoutSecs := defaultRouteTimeout }

end RouteConfig

/-- How the route authenticates is what a provider type calls for. -/
def ResolvedRoute.Profiled (route : ResolvedRoute) : Prop :=
  ∃ providerType, authForProviderType providerType = (route.auth, route.defaultHeaders)

/-- The first route that speaks the protocol. -/
def candidate (protocol : String) (candidates : List ResolvedRoute) : Option ResolvedRoute :=
  candidates.find? fun route => route.protocols.any (· = normalized protocol)

/-- Two ways to authenticate, and one header that is added unasked. -/
theorem authForProviderType_cases (providerType : String) :
    authForProviderType providerType = (.bearer, []) ∨
      authForProviderType providerType = (.custom "x-api-key", [("anthropic-version", "2023-06-01")]) := by
  unfold authForProviderType
  cases found : profileFor providerType with
  | none => exact .inl rfl
  | some profile =>
    have listed := List.mem_of_find?_eq_some found
    simp only [profiles, List.mem_cons, List.not_mem_nil, or_false] at listed
    rcases listed with rfl | rfl | rfl
    · exact .inl rfl
    · exact .inr rfl
    · exact .inl rfl

theorem normalized_normalized (text : String) : normalized (normalized text) = normalized text := by
  have lowered : toAsciiLowercase (toAsciiLowercase (trim text.toList)) = toAsciiLowercase (trim text.toList) := by
    unfold toAsciiLowercase
    rw [List.map_map]
    refine List.map_congr_left ?_
    intro c _
    rw [Function.comp_apply, ← Char.toNat_inj, toNat_toLower c.toLower, toNat_toLower]
    grind
  unfold normalized
  rw [String.toList_ofList, trim_lowercase, trim_trim, lowered]

theorem authForProviderType_normalized (providerType : String) :
    authForProviderType (normalized providerType) = authForProviderType providerType := by
  unfold authForProviderType profileFor
  rw [normalized_normalized]

theorem profiled_of_resolve {env : String → Option String} {config : RouteConfig} {route : ResolvedRoute}
    (resolved : config.resolve env = .ok route) : route.Profiled := by
  unfold RouteConfig.resolve at resolved
  cases found : authForProviderType (config.providerType.getD "") with
  | mk auth defaultHeaders =>
    simp only [found, bind, Except.bind, pure, Except.pure] at resolved
    split at resolved
    · cases resolved
    · split at resolved
      · cases resolved
      · cases resolved
        exact ⟨_, found⟩

end OpenShell.Router
