import OpenShell.Lib.Environment
import OpenShell.Lib.Json
import OpenShell.Lib.Results
import OpenShell.Server.ExecCommand
import OpenShell.Server.Gateway

namespace OpenShell.Server.Gateway

open OpenShell.Policy Environment

/-! The environment of the agent container. -/

/-- What the client of the cluster has been configured with. -/
structure SandboxClient where
  grpcEndpoint : String
  sshListenAddr : String
  sshHandshakeSecret : String
  sshHandshakeSkewSecs : UInt64
  clientTlsSecretName : String

def envItem (name value : String) : Json := .object [("name", .string name), ("value", .string value)]

def nameOf (item : Json) : Option String := (item.get "name").bind Json.asStr

def upsertEnv (name value : String) : List Json → List Json
  | [] => [envItem name value]
  | item :: env => if nameOf item = some name then envItem name value :: env else item :: upsertEnv name value env

def applyEnvMap (env : List Json) (values : List (String × String)) : List Json :=
  values.foldl (fun env entry => upsertEnv entry.1 entry.2 env) env

/-- What `apply_required_env` sets, in its order. -/
def requiredEnv (client : SandboxClient) (sandboxId sandboxName : String) : List (String × String) :=
  [("OPENSHELL_SANDBOX_ID", sandboxId),
    ("OPENSHELL_SANDBOX", sandboxName),
    ("OPENSHELL_ENDPOINT", client.grpcEndpoint),
    ("OPENSHELL_SANDBOX_COMMAND", "sleep infinity")] ++
  (if client.sshListenAddr = "" then [] else [("OPENSHELL_SSH_LISTEN_ADDR", client.sshListenAddr)]) ++
  [("OPENSHELL_SSH_HANDSHAKE_SECRET", client.sshHandshakeSecret),
    ("OPENSHELL_SSH_HANDSHAKE_SKEW_SECS", toString client.sshHandshakeSkewSecs)] ++
  (if client.clientTlsSecretName = "" then []
    else
      [("OPENSHELL_TLS_CA", "/etc/openshell-tls/client/ca.crt"),
        ("OPENSHELL_TLS_CERT", "/etc/openshell-tls/client/tls.crt"),
        ("OPENSHELL_TLS_KEY", "/etc/openshell-tls/client/tls.key")])

def buildEnvList (existingEnv : Option (List Json)) (templateEnvironment specEnvironment : StringMap String)
    (client : SandboxClient) (sandboxId sandboxName : String) : List Json :=
  let env := existingEnv.getD []
  let env := applyEnvMap env (pairs templateEnvironment)
  let env := applyEnvMap env (pairs specEnvironment)
  applyEnvMap env (requiredEnv client sandboxId sandboxName)

def templateEnvironment (sandbox : Sandbox) : StringMap String :=
  ((sandbox.spec.bind SandboxSpec.template).map SandboxTemplate.environment).getD ∅

def specEnvironment (sandbox : Sandbox) : StringMap String := (sandbox.spec.map SandboxSpec.environment).getD ∅

/-- The list that `sandbox_to_k8s_spec` puts into the pod template. -/
def agentEnv (client : SandboxClient) (sandbox : Sandbox) : List Json :=
  buildEnvList none (templateEnvironment sandbox) (specEnvironment sandbox) client sandbox.id sandbox.name

@[simp] theorem nameOf_envItem (name value : String) : nameOf (envItem name value) = some name := by
  simp [nameOf, envItem, Json.get, Json.asObject, Json.asStr]

/-- The list holds an item for each variable, and no two items have a name. -/
structure Lists (env : List Json) (vars : Variables String String) : Prop where
  names : (env.map nameOf).Nodup
  items : ∀ item, item ∈ env ↔ ∃ name value, item = envItem name value ∧ vars name = some value

section Lists

variable {env : List Json} {vars : Variables String String} {name value : String}

theorem Lists.item (lists : Lists env vars) {item : Json} (member : item ∈ env) :
    ∃ name value, item = envItem name value ∧ vars name = some value := (lists.items item).1 member

theorem mem_upsertEnv_names {item : Json} (member : item ∈ upsertEnv name value env) :
    item = envItem name value ∨ item ∈ env := by
  induction env with
  | nil => exact .inl (List.mem_singleton.1 member)
  | cons first rest ih =>
    unfold upsertEnv at member
    split at member
    · rcases List.mem_cons.1 member with new | old
      · exact .inl new
      · exact .inr (List.mem_cons_of_mem _ old)
    · rcases List.mem_cons.1 member with same | later
      · exact .inr (same ▸ List.mem_cons_self)
      · rcases ih later with new | old
        · exact .inl new
        · exact .inr (List.mem_cons_of_mem _ old)

theorem upsertEnv_names : (upsertEnv name value env).map nameOf =
    if some name ∈ env.map nameOf then env.map nameOf else env.map nameOf ++ [some name] := by
  induction env with
  | nil => simp [upsertEnv]
  | cons item rest ih =>
    unfold upsertEnv
    by_cases same : nameOf item = some name
    · simp [same]
    · rw [if_neg same, List.map_cons, List.map_cons, ih]
      by_cases later : some name ∈ rest.map nameOf
      · rw [if_pos later, if_pos (List.mem_cons_of_mem _ later)]
      · rw [if_neg later, if_neg, List.cons_append]
        rw [List.mem_cons]
        exact not_or.2 ⟨Ne.symm same, later⟩

theorem envItem_mem_upsertEnv : envItem name value ∈ upsertEnv name value env := by
  induction env with
  | nil => exact List.mem_singleton_self _
  | cons item rest ih =>
    unfold upsertEnv
    split
    · exact List.mem_cons_self
    · exact List.mem_cons_of_mem _ ih

theorem mem_upsertEnv_of_ne {item : Json} (member : item ∈ env) (other : nameOf item ≠ some name) :
    item ∈ upsertEnv name value env := by
  induction env with
  | nil => cases member
  | cons first rest ih =>
    unfold upsertEnv
    split
    · rename_i same
      rcases List.mem_cons.1 member with here | later
      · exact absurd (here ▸ same) other
      · exact List.mem_cons_of_mem _ later
    · rcases List.mem_cons.1 member with here | later
      · exact here ▸ List.mem_cons_self
      · exact List.mem_cons_of_mem _ (ih later)

theorem Lists.upsert (lists : Lists env vars) (name value : String) :
    Lists (upsertEnv name value env) (Environment.set vars name value) := by
  have names : ((upsertEnv name value env).map nameOf).Nodup := by
    rw [upsertEnv_names]
    split
    · exact lists.names
    · rename_i new
      exact Objects.nodup_concat lists.names new
  refine ⟨names, ?_⟩
  intro item
  constructor
  · intro member
    by_cases same : nameOf item = some name
    · have only : item = envItem name value :=
        List.inj_on_of_nodup_map names member envItem_mem_upsertEnv (same.trans (nameOf_envItem _ _).symm)
      exact ⟨name, value, only, Function.update_self ..⟩
    · rcases mem_upsertEnv_names member with rfl | old
      · exact absurd (nameOf_envItem _ _) same
      · obtain ⟨held, text, rfl, found⟩ := lists.item old
        rw [nameOf_envItem, Option.some_inj] at same
        exact ⟨held, text, rfl, (Function.update_of_ne same ..).trans found⟩
  · rintro ⟨held, text, rfl, found⟩
    by_cases same : held = name
    · subst same
      rw [Environment.set, Function.update_self] at found
      cases found
      exact envItem_mem_upsertEnv
    · rw [Environment.set, Function.update_of_ne same] at found
      refine mem_upsertEnv_of_ne ((lists.items _).2 ⟨held, text, rfl, found⟩) ?_
      rw [nameOf_envItem, ne_eq, Option.some_inj]
      exact same

theorem Lists.applyEnvMap (lists : Lists env vars) (values : List (String × String)) :
    Lists (applyEnvMap env values) (setAll vars values) := by
  induction values generalizing env vars with
  | nil => exact lists
  | cons entry rest ih => exact ih (lists.upsert entry.1 entry.2)

theorem lists_nil : Lists [] fun _ => none where
  names := List.nodup_nil
  items _ := ⟨nofun, fun ⟨_, _, _, found⟩ => nomatch found⟩

end Lists

theorem requiredEnv_distinct (client : SandboxClient) (sandboxId sandboxName : String) :
    ((requiredEnv client sandboxId sandboxName).map Prod.fst).Nodup := by
  unfold requiredEnv
  split <;> split <;> simp

/-- The value of a variable: a required one is what the gateway sets, the others are of the sandbox before they are of
its template. -/
def agentVariable (client : SandboxClient) (sandbox : Sandbox) (name : String) : Option String :=
  ((requiredEnv client sandbox.id sandbox.name).lookup name).or
    (((specEnvironment sandbox).lookup name).or ((templateEnvironment sandbox).lookup name))

theorem agentEnv_lists (client : SandboxClient) (sandbox : Sandbox) :
    Lists (agentEnv client sandbox) (agentVariable client sandbox) := by
  have built := ((lists_nil.applyEnvMap (pairs (templateEnvironment sandbox))).applyEnvMap
    (pairs (specEnvironment sandbox))).applyEnvMap (requiredEnv client sandbox.id sandbox.name)
  have same : setAll (setAll (setAll (fun _ => none) (pairs (templateEnvironment sandbox)))
      (pairs (specEnvironment sandbox))) (requiredEnv client sandbox.id sandbox.name) =
      agentVariable client sandbox := by
    funext name
    rw [setAll_apply (requiredEnv_distinct ..), setAll_apply (pairs_distinct _), setAll_apply (pairs_distinct _),
      lookup_pairs, lookup_pairs, Option.or_none]
    rfl
  rw [same] at built
  exact built

/-! The credentials that a sandbox is given. -/

/-- The first provider that has a key gives its value, and a key that is no name of a variable is skipped. -/
def insertCredentials (env : StringMap String) (provider : Provider) : StringMap String :=
  (pairs provider.credentials).foldl
    (fun env entry =>
      if Exec.isValidEnvKey entry.1 && (env.lookup entry.1).isNone then env.insert entry.1 entry.2 else env) env

def providerOf (objects : StoredObjects) (name : String) : Option Provider :=
  (objects.getByName "provider" name).bind fun record => record.message.provider?

def sandboxOf (objects : StoredObjects) (sandboxId : String) : Option Sandbox :=
  (objects.table.rows.find? (ObjectRecord.holds "sandbox" sandboxId)).bind fun record => record.message.sandbox?

/-- The statements that fail, with their errors. -/
structure FetchErrors where
  sandbox : Option String := none
  provider : String → Option String := fun _ => none

def fetchProvider (errors : FetchErrors) (objects : StoredObjects) (name : String) : Except Status Provider := do
  let found ← mapInternal ("failed to fetch provider '" ++ name ++ "'")
    (attempt (errors.provider name) (.ok (providerOf objects name)))
  match found with
  | none => throw ⟨.failedPrecondition, "provider '" ++ name ++ "' not found"⟩
  | some provider => return provider

/-- The loop of `resolve_provider_environment`. -/
def collectCredentials (errors : FetchErrors) (objects : StoredObjects) :
    List String → StringMap String → Except Status (StringMap String)
  | [], env => .ok env
  | name :: names, env => do
    let provider ← fetchProvider errors objects name
    collectCredentials errors objects names (insertCredentials env provider)

def resolveProviderEnvironment (errors : FetchErrors) (objects : StoredObjects) (providerNames : List String) :
    Except Status (StringMap String) :=
  if providerNames.isEmpty then .ok ∅ else collectCredentials errors objects providerNames ∅

def handleGetSandboxProviderEnvironment (errors : FetchErrors) (objects : StoredObjects) (sandboxId : String) :
    Except Status (StringMap String) := do
  let found ← mapInternal "fetch sandbox failed" (attempt errors.sandbox (.ok (sandboxOf objects sandboxId)))
  match found with
  | none => throw ⟨.notFound, "sandbox not found"⟩
  | some sandbox =>
    match sandbox.spec with
    | none => throw ⟨.internal, "sandbox has no spec"⟩
    | some spec => resolveProviderEnvironment errors objects spec.providers

/-- What a provider gives for a variable. -/
def credential (provider : Provider) (key : String) : Option String :=
  if Exec.isValidEnvKey key then provider.credentials.lookup key else none

section Credentials

variable {errors : FetchErrors} {objects other : StoredObjects} {env result : StringMap String} {names : List String}
  {key : String}

theorem lookup_insertCredentials (env : StringMap String) (provider : Provider) (key : String) :
    (insertCredentials env provider).lookup key = (env.lookup key).or (credential provider key) := by
  have whole : ∀ (entries : List (String × String)) (env : StringMap String),
      (entries.foldl (fun env entry =>
        if Exec.isValidEnvKey entry.1 && (env.lookup entry.1).isNone then env.insert entry.1 entry.2 else env)
        env).lookup key =
        (env.lookup key).or (if Exec.isValidEnvKey key then entries.lookup key else none) := by
    intro entries
    induction entries with
    | nil => intro env; simp
    | cons entry entries ih =>
      intro env
      obtain ⟨name, value⟩ := entry
      rw [List.foldl_cons, ih, List.lookup_cons]
      by_cases same : key = name
      · subst same
        cases held : env.lookup key <;> cases valid : Exec.isValidEnvKey key <;> simp [held]
      · rw [beq_false_of_ne same]
        split
        · rw [AList.lookup_insert_ne same]
        · rfl
  rw [insertCredentials, whole, lookup_pairs]
  rfl

theorem fetchProvider_ok {name : String} {provider : Provider}
    (fetched : fetchProvider errors objects name = .ok provider) : providerOf objects name = some provider := by
  unfold fetchProvider at fetched
  obtain ⟨found, read, rest⟩ := Results.ok_of_bind fetched
  have same := (attempt_ok read).2
  cases same
  split at rest
  · cases rest
  · rename_i held
    cases rest
    exact held

/-- A variable has the value of the first provider of the list that gives it one. -/
theorem lookup_collectCredentials (collected : collectCredentials errors objects names env = .ok result) :
    result.lookup key =
      (env.lookup key).or (names.findSome? fun name => (providerOf objects name).bind fun provider =>
        credential provider key) := by
  induction names generalizing env with
  | nil =>
    cases collected
    simp
  | cons name names ih =>
    unfold collectCredentials at collected
    obtain ⟨provider, fetched, rest⟩ := Results.ok_of_bind collected
    rw [ih rest, lookup_insertCredentials, List.findSome?_cons, fetchProvider_ok fetched, Option.bind_some,
      Option.or_assoc]
    cases credential provider key <;> rfl

/-- What a sandbox is given for a variable. -/
def provided (objects : StoredObjects) (names : List String) (key : String) : Option String :=
  names.findSome? fun name => (providerOf objects name).bind fun provider => credential provider key

theorem lookup_resolveProviderEnvironment (resolved : resolveProviderEnvironment errors objects names = .ok result) :
    result.lookup key = provided objects names key := by
  unfold resolveProviderEnvironment at resolved
  split at resolved
  · rename_i none
    rw [List.isEmpty_iff.1 none]
    cases resolved
    rfl
  · rw [lookup_collectCredentials resolved]
    rfl

theorem lookup_handleGetSandboxProviderEnvironment {sandboxId : String}
    (handled : handleGetSandboxProviderEnvironment errors objects sandboxId = .ok result) :
    ∃ sandbox spec, sandboxOf objects sandboxId = some sandbox ∧ sandbox.spec = some spec ∧
      ∀ key, result.lookup key = provided objects spec.providers key := by
  unfold handleGetSandboxProviderEnvironment at handled
  obtain ⟨found, read, rest⟩ := Results.ok_of_bind handled
  have same := (attempt_ok read).2
  cases same
  split at rest
  · cases rest
  · rename_i sandbox held
    split at rest
    · cases rest
    · rename_i spec specified
      exact ⟨sandbox, spec, held, specified, fun key => lookup_resolveProviderEnvironment rest⟩

end Credentials

def keysOf (provider : Provider) (key : String) : Bool := (provider.credentials.lookup key).isSome

def setKeys (env : StringMap String) (key : String) : Bool := (env.lookup key).isSome

/-- Two stores that differ for a sandbox in the values of credentials at most. -/
structure SameButValues (objects other : StoredObjects) (sandboxId : String) : Prop where
  sandbox : sandboxOf objects sandboxId = sandboxOf other sandboxId
  keys : ∀ name, (providerOf objects name).map keysOf = (providerOf other name).map keysOf

section SameKeys

variable {errors : FetchErrors} {objects other : StoredObjects} {sandboxId : String}

theorem setKeys_insertCredentials {env twin : StringMap String} {provider peer : Provider}
    (same : setKeys env = setKeys twin) (keys : keysOf provider = keysOf peer) :
    setKeys (insertCredentials env provider) = setKeys (insertCredentials twin peer) := by
  funext key
  have held : (env.lookup key).isSome = (twin.lookup key).isSome := congrFun same key
  have given : (provider.credentials.lookup key).isSome = (peer.credentials.lookup key).isSome := congrFun keys key
  simp only [setKeys, lookup_insertCredentials, Option.isSome_or, held, credential]
  split
  · rw [given]
  · rfl

theorem fetchProvider_keys (keys : ∀ name, (providerOf objects name).map keysOf = (providerOf other name).map keysOf)
    (name : String) :
    (fetchProvider errors objects name).map keysOf = (fetchProvider errors other name).map keysOf := by
  have same := keys name
  unfold fetchProvider
  cases errors.provider name with
  | some text => rfl
  | none =>
    cases mine : providerOf objects name with
    | none =>
      cases theirs : providerOf other name with
      | none => rfl
      | some peer => simp [mine, theirs] at same
    | some provider =>
      cases theirs : providerOf other name with
      | none => simp [mine, theirs] at same
      | some peer =>
        rw [mine, theirs] at same
        exact congrArg Except.ok (Option.some.inj same)

theorem collectCredentials_keys
    (keys : ∀ name, (providerOf objects name).map keysOf = (providerOf other name).map keysOf) (names : List String)
    {env twin : StringMap String} (same : setKeys env = setKeys twin) :
    (collectCredentials errors objects names env).map setKeys =
      (collectCredentials errors other names twin).map setKeys := by
  induction names generalizing env twin with
  | nil => exact congrArg Except.ok same
  | cons name names ih =>
    have fetched := @fetchProvider_keys errors objects other keys name
    unfold collectCredentials
    cases mine : fetchProvider errors objects name with
    | error problem =>
      cases theirs : fetchProvider errors other name with
      | error trouble =>
        rw [mine, theirs] at fetched
        exact congrArg Except.error (Except.error.inj fetched)
      | ok peer =>
        rw [mine, theirs] at fetched
        cases fetched
    | ok provider =>
      cases theirs : fetchProvider errors other name with
      | error trouble =>
        rw [mine, theirs] at fetched
        cases fetched
      | ok peer =>
        rw [mine, theirs] at fetched
        exact ih (setKeys_insertCredentials same (Except.ok.inj fetched))

/-- Which variables a sandbox is given does not depend on their values. -/
theorem SameButValues.setKeys (same : SameButValues objects other sandboxId) :
    (handleGetSandboxProviderEnvironment errors objects sandboxId).map setKeys =
      (handleGetSandboxProviderEnvironment errors other sandboxId).map setKeys := by
  unfold handleGetSandboxProviderEnvironment
  rw [same.sandbox]
  cases errors.sandbox with
  | some text => rfl
  | none =>
    cases sandboxOf other sandboxId with
    | none => rfl
    | some sandbox =>
      cases specified : sandbox.spec with
      | none =>
        simp only [attempt, mapInternal, Except.mapError, bind, Except.bind, specified]
      | some spec =>
        simp only [attempt, mapInternal, Except.mapError, bind, Except.bind, specified, resolveProviderEnvironment]
        split
        · rfl
        · exact collectCredentials_keys same.keys spec.providers rfl

end SameKeys

end OpenShell.Server.Gateway
