import OpenShell.Lib.Environment
import OpenShell.Lib.IpAddr
import OpenShell.Lib.Results
import OpenShell.Sandbox.Confinement
import OpenShell.Sandbox.Netns
import OpenShell.Sandbox.Secrets
import OpenShell.Server.SandboxEnv

namespace OpenShell.Sandbox.ChildEnv

open Environment Net
open Confinement (NetworkMode)
open OpenShell.Policy (StringMap)
open OpenShell.Server.Gateway

/-! The environment of the programs that run in a sandbox. -/

abbrev Entries : Type := List (List Char × List Char)

abbrev Env : Type := Variables (List Char) (List Char)

abbrev Cmd : Type := Overrides (List Char) (List Char)

def localNoProxy : List Char := "127.0.0.1,localhost,::1".toList

def proxyEnvVars (proxyUrl : List Char) : Entries :=
  [("ALL_PROXY".toList, proxyUrl),
    ("HTTP_PROXY".toList, proxyUrl),
    ("HTTPS_PROXY".toList, proxyUrl),
    ("NO_PROXY".toList, localNoProxy),
    ("http_proxy".toList, proxyUrl),
    ("https_proxy".toList, proxyUrl),
    ("no_proxy".toList, localNoProxy),
    ("grpc_proxy".toList, proxyUrl),
    ("NODE_USE_ENV_PROXY".toList, "1".toList)]

def tlsEnvVars (caCertPath combinedBundlePath : List Char) : Entries :=
  [("NODE_EXTRA_CA_CERTS".toList, caCertPath),
    ("SSL_CERT_FILE".toList, combinedBundlePath),
    ("REQUESTS_CA_BUNDLE".toList, combinedBundlePath),
    ("CURL_CA_BUNDLE".toList, combinedBundlePath)]

structure ProxyPolicy where
  httpAddr : Option SocketAddr

structure NetworkPolicy where
  mode : NetworkMode
  proxy : Option ProxyPolicy

def displayAddr (addr : SocketAddr) : List Char :=
  match addr.ip with
  | .v4 ip => ip.text.toList ++ ':' :: Nat.toDigits 10 addr.port.toNat
  | .v6 ip => '[' :: ip.text.toList ++ ']' :: ':' :: Nat.toDigits 10 addr.port.toNat

def proxyPort (proxy : ProxyPolicy) : UInt16 := (proxy.httpAddr.map SocketAddr.port).getD 3128

/-- The proxy at the host's end of the pair of interfaces. -/
def netnsProxyUrl (port : UInt16) : List Char :=
  "http://".toList ++ Netns.hostIp.toList ++ ':' :: Nat.toDigits 10 port.toNat

def sshHandshakeSecretEnv : List Char := "OPENSHELL_SSH_HANDSHAKE_SECRET".toList

def scrubSensitiveEnv (cmd : Cmd) : Cmd := cmd.remove sshHandshakeSecretEnv

def injectProviderEnv (cmd : Cmd) (providerEnv : Entries) : Cmd := cmd.setAll providerEnv

/-- What the supervisor has when it starts programs. `netns` is the namespace, with its descriptor. -/
structure Supervisor where
  inherited : Env
  network : NetworkPolicy
  runAsUser : Option (List Char)
  homeOf : List Char → Option (List Char)
  netns : Option (Option Nat)
  caPaths : Option (List Char × List Char)

namespace Supervisor

variable (supervisor : Supervisor)

/-- The variables of the proxy that `spawn_impl` sets. -/
def spawnProxyVars : Except String Entries :=
  match supervisor.network.mode with
  | .proxy =>
    match supervisor.network.proxy with
    | none => .error "Network mode is set to proxy but no proxy configuration was provided"
    | some proxy =>
      if (supervisor.netns.bind id).isSome then .ok (proxyEnvVars (netnsProxyUrl (proxyPort proxy)))
      else
        match proxy.httpAddr with
        | some httpAddr => .ok (proxyEnvVars ("http://".toList ++ displayAddr httpAddr))
        | none => .ok []
  | .block | .allow => .ok []

def tlsVars : Entries :=
  match supervisor.caPaths with
  | some (caCertPath, combinedBundlePath) => tlsEnvVars caCertPath combinedBundlePath
  | none => []

/-- What `spawn_impl` makes of the environment. -/
def spawnImpl (providerEnv : Entries) : Except String Cmd := do
  let cmd := ({} : Cmd).set "OPENSHELL_SANDBOX".toList "1".toList
  let cmd := injectProviderEnv (scrubSensitiveEnv cmd) providerEnv
  let proxyVars ← supervisor.spawnProxyVars
  return (cmd.setAll proxyVars).setAll supervisor.tlsVars

def sshProxyUrl : Option (List Char) :=
  match supervisor.network.mode with
  | .proxy =>
    supervisor.netns.map fun _ => netnsProxyUrl ((supervisor.network.proxy.map proxyPort).getD 3128)
  | .block | .allow => none

def sessionUserAndHome : List Char × List Char :=
  match supervisor.runAsUser with
  | some user =>
    if user ≠ [] then (user, (supervisor.homeOf user).getD ("/home/".toList ++ user))
    else ("sandbox".toList, "/sandbox".toList)
  | none => ("sandbox".toList, "/sandbox".toList)

def sessionVars (term : List Char) : Entries :=
  [("OPENSHELL_SANDBOX".toList, "1".toList),
    ("HOME".toList, supervisor.sessionUserAndHome.2),
    ("USER".toList, supervisor.sessionUserAndHome.1),
    ("SHELL".toList, "/bin/bash".toList),
    ("PATH".toList, (supervisor.inherited "PATH".toList).getD "/usr/local/bin:/usr/bin:/bin".toList),
    ("TERM".toList, term)]

def sshProxyVars : Entries :=
  match supervisor.sshProxyUrl with
  | some url => proxyEnvVars url
  | none => []

def applyChildEnv (term : List Char) (providerEnv : Entries) : Cmd :=
  let cmd := (Overrides.clear {}).setAll (supervisor.sessionVars term)
  let cmd := cmd.setAll supervisor.sshProxyVars
  let cmd := cmd.setAll supervisor.tlsVars
  cmd.setAll providerEnv

/-- `TERM` of a session: of the terminal that it asked for, if it asked for one. -/
def sessionTerm : Option (List Char) → List Char
  | some term => if term.isEmpty then "xterm-256color".toList else term
  | none => "dumb".toList

end Supervisor

/-! From the answer of the gateway to the environments. -/

def textPairs (received : StringMap String) : Entries :=
  (pairs received).map fun entry => (entry.1.toList, entry.2.toList)

theorem textPairs_distinct (received : StringMap String) : ((textPairs received).map Prod.fst).Nodup := by
  have keys : (textPairs received).map Prod.fst = ((pairs received).map Prod.fst).map String.toList := by
    simp [textPairs, List.map_map, Function.comp_def]
  rw [keys]
  exact (pairs_distinct received).map fun _ _ => String.toList_inj.1

def fromReceived (received : StringMap String) : Entries × Option SecretResolver :=
  SecretResolver.fromProviderEnv (textPairs received) (textPairs_distinct received)

/-- The map that arrives, in whatever order it is iterated. A sandbox starts without variables where there is none. -/
def Receives (answer : Except Server.Status (StringMap String)) (received : StringMap String) : Prop :=
  match answer with
  | .ok environment => received.entries.Perm environment.entries
  | .error _ => received = ∅

namespace Supervisor

variable (supervisor : Supervisor) (received : StringMap String)

def programEnv : Except String Env :=
  (supervisor.spawnImpl (fromReceived received).1).map fun cmd => cmd.captured supervisor.inherited

def sessionEnv (pty : Option (List Char)) : Env :=
  (supervisor.applyChildEnv (sessionTerm pty) (fromReceived received).1).captured supervisor.inherited

end Supervisor

section Variables

variable {supervisor : Supervisor} {received : StringMap String} {key : List Char}

/-- The variable of a credential. -/
def placeholderOf (received : StringMap String) (key : List Char) : Option (List Char) :=
  (received.lookup (String.ofList key)).map fun _ => placeholderForEnvKey key

theorem lookup_textPairs :
    (textPairs received).lookup key = (received.lookup (String.ofList key)).map String.toList := by
  rw [← lookup_pairs, textPairs]
  induction pairs received with
  | nil => rfl
  | cons entry rest ih =>
    obtain ⟨name, value⟩ := entry
    rw [List.map_cons, List.lookup_cons, List.lookup_cons, ih]
    by_cases same : key = name.toList
    · subst same
      simp
    · have apart : String.ofList key ≠ name := by
        intro shared
        exact same (by rw [← shared, String.toList_ofList])
      rw [beq_false_of_ne same, beq_false_of_ne apart]

theorem lookup_map_keyed {entries : Entries} (change : List Char → List Char) :
    (entries.map fun entry => (entry.1, change entry.1)).lookup key = (entries.lookup key).map fun _ => change key := by
  induction entries with
  | nil => rfl
  | cons entry rest ih =>
    rw [List.map_cons, List.lookup_cons, List.lookup_cons, ih]
    by_cases same : key = entry.1
    · subst same
      simp
    · rw [beq_false_of_ne same]

theorem lookup_placeholders : (fromReceived received).1.lookup key = placeholderOf received key := by
  have shown : (fromReceived received).1 =
      (textPairs received).map fun entry => (entry.1, placeholderForEnvKey entry.1) := by
    unfold fromReceived SecretResolver.fromProviderEnv
    split
    · rename_i none
      rw [List.isEmpty_iff.1 none]
      rfl
    · rfl
  rw [shown, lookup_map_keyed, lookup_textPairs, placeholderOf, Option.map_map]
  rfl

theorem placeholders_distinct : ((fromReceived received).1.map Prod.fst).Nodup := by
  unfold fromReceived SecretResolver.fromProviderEnv
  split
  · exact List.nodup_nil
  · have keys : ((textPairs received).map fun entry => (entry.1, placeholderForEnvKey entry.1)).map Prod.fst =
        (textPairs received).map Prod.fst := by
      rw [List.map_map]
      rfl
    exact keys ▸ textPairs_distinct received

theorem proxyEnvVars_distinct (proxyUrl : List Char) : ((proxyEnvVars proxyUrl).map Prod.fst).Nodup := by
  have names : (proxyEnvVars proxyUrl).map Prod.fst = (proxyEnvVars []).map Prod.fst := rfl
  rw [names]
  decide

theorem tlsVars_distinct (supervisor : Supervisor) : (supervisor.tlsVars.map Prod.fst).Nodup := by
  unfold Supervisor.tlsVars
  split
  · rename_i caCertPath combinedBundlePath _
    have names : (tlsEnvVars caCertPath combinedBundlePath).map Prod.fst = (tlsEnvVars [] []).map Prod.fst := rfl
    rw [names]
    decide
  · exact List.nodup_nil

theorem spawnProxyVars_distinct {proxyVars : Entries} (chosen : supervisor.spawnProxyVars = .ok proxyVars) :
    (proxyVars.map Prod.fst).Nodup := by
  unfold Supervisor.spawnProxyVars at chosen
  split at chosen
  · split at chosen
    · cases chosen
    · split at chosen
      · cases chosen
        exact proxyEnvVars_distinct _
      · split at chosen
        · cases chosen
          exact proxyEnvVars_distinct _
        · cases chosen
          exact List.nodup_nil
  · cases chosen
    exact List.nodup_nil
  · cases chosen
    exact List.nodup_nil

theorem sshProxyVars_distinct (supervisor : Supervisor) : (supervisor.sshProxyVars.map Prod.fst).Nodup := by
  unfold Supervisor.sshProxyVars
  split
  · exact proxyEnvVars_distinct _
  · exact List.nodup_nil

theorem sessionVars_distinct (supervisor : Supervisor) (term : List Char) :
    ((supervisor.sessionVars term).map Prod.fst).Nodup := by
  have names : (supervisor.sessionVars term).map Prod.fst =
      ["OPENSHELL_SANDBOX".toList, "HOME".toList, "USER".toList, "SHELL".toList, "PATH".toList, "TERM".toList] := rfl
  rw [names]
  decide

/-- What the supervisor passes on of its own environment. -/
def passedOn (inherited : Env) (key : List Char) : Option (List Char) :=
  if key = sshHandshakeSecretEnv then none
  else if key = "OPENSHELL_SANDBOX".toList then some "1".toList
  else inherited key

theorem spawn_start : (scrubSensitiveEnv (({} : Cmd).set "OPENSHELL_SANDBOX".toList "1".toList)).captured
    supervisor.inherited = passedOn supervisor.inherited := by
  funext name
  rw [scrubSensitiveEnv, Overrides.captured_remove, Overrides.captured_set]
  unfold unset Environment.set passedOn
  simp only [Function.update_apply]
  rfl

theorem programEnv_eq : supervisor.programEnv received = supervisor.spawnProxyVars.map fun proxyVars =>
    fun key => (supervisor.tlsVars.lookup key).or ((proxyVars.lookup key).or
      ((placeholderOf received key).or (passedOn supervisor.inherited key))) := by
  unfold Supervisor.programEnv Supervisor.spawnImpl
  cases chosen : supervisor.spawnProxyVars with
  | error problem => rfl
  | ok proxyVars =>
    refine congrArg Except.ok ?_
    funext key
    show (((injectProviderEnv (scrubSensitiveEnv _) _).setAll proxyVars).setAll supervisor.tlsVars).captured
      supervisor.inherited key = _
    rw [Overrides.captured_setAll, Overrides.captured_setAll, injectProviderEnv, Overrides.captured_setAll, spawn_start,
      setAll_apply (tlsVars_distinct _), setAll_apply (spawnProxyVars_distinct chosen),
      setAll_apply placeholders_distinct, lookup_placeholders]

theorem sessionEnv_eq (pty : Option (List Char)) : supervisor.sessionEnv received pty = fun key =>
    (placeholderOf received key).or ((supervisor.tlsVars.lookup key).or ((supervisor.sshProxyVars.lookup key).or
      ((supervisor.sessionVars (Supervisor.sessionTerm pty)).lookup key))) := by
  funext key
  unfold Supervisor.sessionEnv Supervisor.applyChildEnv
  dsimp only
  rw [Overrides.captured_setAll, Overrides.captured_setAll, Overrides.captured_setAll, Overrides.captured_setAll,
    Overrides.captured_clear, setAll_apply placeholders_distinct, setAll_apply (tlsVars_distinct _),
    setAll_apply (sshProxyVars_distinct _), setAll_apply (sessionVars_distinct _ _), lookup_placeholders,
    Option.or_none]

end Variables

/-! What the programs learn of the secrets. -/

/-- The environments of two supervisors differ in the secret of the handshake at most, and nothing else does. -/
structure SameButSecret (first second : Supervisor) : Prop where
  inherited : ∀ key, key ≠ sshHandshakeSecretEnv → first.inherited key = second.inherited key
  others : first = { second with inherited := first.inherited }

section Secrets

variable {first second supervisor : Supervisor} {received receivedToo : StringMap String}
  {objects other : StoredObjects} {errors : FetchErrors} {sandboxId : String} {environment : StringMap String}

theorem passedOn_same (alike : SameButSecret first second) : passedOn first.inherited = passedOn second.inherited := by
  funext key
  unfold passedOn
  split
  · rfl
  · rename_i other
    rw [alike.inherited key other]

theorem sessionVars_same (alike : SameButSecret first second) (term : List Char) :
    first.sessionVars term = second.sessionVars term := by
  have path : first.inherited "PATH".toList = second.inherited "PATH".toList := alike.inherited _ (by decide)
  have user : first.sessionUserAndHome = second.sessionUserAndHome := by rw [alike.others]; rfl
  rw [Supervisor.sessionVars, Supervisor.sessionVars, path, user]

theorem placeholderOf_same (same : setKeys received = setKeys receivedToo) :
    placeholderOf received = placeholderOf receivedToo := by
  funext key
  have held : (received.lookup (String.ofList key)).isSome = (receivedToo.lookup (String.ofList key)).isSome :=
    congrFun same _
  unfold placeholderOf
  cases mine : received.lookup (String.ofList key) <;> cases theirs : receivedToo.lookup (String.ofList key) <;>
    simp_all

theorem Receives.lookup (arrived : Receives (.ok environment) received) (key : String) :
    received.lookup key = environment.lookup key := AList.perm_lookup arrived

theorem receives_same {answer answerToo : Except Server.Status (StringMap String)}
    (same : answer.map setKeys = answerToo.map setKeys) (mine : Receives answer received)
    (theirs : Receives answerToo receivedToo) : setKeys received = setKeys receivedToo := by
  cases answer with
  | error problem =>
    cases answerToo with
    | error trouble => rw [show received = ∅ from mine, show receivedToo = ∅ from theirs]
    | ok environment => cases same
  | ok environment =>
    cases answerToo with
    | error trouble => cases same
    | ok environmentToo =>
      have keys : setKeys environment = setKeys environmentToo := Except.ok.inj same
      funext key
      have held := congrFun keys key
      simp only [setKeys] at held ⊢
      rw [mine.lookup, theirs.lookup, held]

/-- Neither the programs nor the sessions of a sandbox can tell another secret of the handshake from it, nor other
values of the credentials. -/
theorem programs_learn_no_secret (alike : SameButSecret first second) (same : SameButValues objects other sandboxId)
    (mine : Receives (handleGetSandboxProviderEnvironment errors objects sandboxId) received)
    (theirs : Receives (handleGetSandboxProviderEnvironment errors other sandboxId) receivedToo) :
    first.programEnv received = second.programEnv receivedToo ∧
      ∀ pty, first.sessionEnv received pty = second.sessionEnv receivedToo pty := by
  have placed : placeholderOf received = placeholderOf receivedToo :=
    placeholderOf_same (receives_same same.setKeys mine theirs)
  have passed := passedOn_same alike
  have tls : first.tlsVars = second.tlsVars := by rw [alike.others]; rfl
  constructor
  · have proxy : first.spawnProxyVars = second.spawnProxyVars := by rw [alike.others]; rfl
    rw [programEnv_eq, programEnv_eq, placed, passed, tls, proxy]
  · intro pty
    have proxy : first.sshProxyVars = second.sshProxyVars := by rw [alike.others]; rfl
    rw [sessionEnv_eq, sessionEnv_eq, placed, tls, proxy, sessionVars_same alike]

/-! How a program comes to use a credential. -/

/-- The names that `spawn_impl` sets after the variables of the credentials. -/
def laterNames : List (List Char) := (proxyEnvVars [] ++ tlsEnvVars [] []).map Prod.fst

/-- What a credential is in the environments, and what the proxy makes of it. -/
structure Served (supervisor : Supervisor) (received : StringMap String) (given : String → Option String) : Prop where
  session : ∀ pty key value, given key = some value →
    supervisor.sessionEnv received pty key.toList = some (placeholderForEnvKey key.toList)
  program : ∀ env key value, supervisor.programEnv received = .ok env → given key = some value →
    key.toList ∉ laterNames → env key.toList = some (placeholderForEnvKey key.toList)
  resolved : ∀ text secret, ((fromReceived received).2.bind fun resolver => resolver.resolvePlaceholder text) =
    some secret ↔ ∃ key value, text = placeholderForEnvKey key.toList ∧ given key = some value ∧
      validateResolvedSecret value.toList = .ok secret

theorem placeholderOf_some {key value : String} (found : received.lookup key = some value) :
    placeholderOf received key.toList = some (placeholderForEnvKey key.toList) := by
  rw [placeholderOf, String.ofList_toList, found]
  rfl

theorem lookup_later {key : List Char} (absent : key ∉ laterNames) :
    supervisor.tlsVars.lookup key = none ∧
      ∀ proxyVars, supervisor.spawnProxyVars = .ok proxyVars → proxyVars.lookup key = none := by
  have unlisted : ∀ {entries : Entries}, entries.map Prod.fst ⊆ laterNames → entries.lookup key = none := by
    intro entries within
    rw [List.lookup_eq_none_iff]
    intro entry member
    rw [bne_iff_ne]
    intro same
    have listed : entry.1 ∈ entries.map Prod.fst := List.mem_map_of_mem member
    exact absent (same ▸ within listed)
  have ofProxy : ∀ url, (proxyEnvVars url).map Prod.fst ⊆ laterNames := by
    intro url name member
    exact List.mem_append_left _ member
  constructor
  · unfold Supervisor.tlsVars
    split
    · refine unlisted ?_
      intro name member
      rw [laterNames, List.map_append]
      exact List.mem_append_right _ member
    · rfl
  · intro proxyVars chosen
    unfold Supervisor.spawnProxyVars at chosen
    split at chosen
    · split at chosen
      · cases chosen
      · split at chosen
        · cases chosen
          exact unlisted (ofProxy _)
        · split at chosen
          · cases chosen
            exact unlisted (ofProxy _)
          · cases chosen
            rfl
    · cases chosen
      rfl
    · cases chosen
      rfl

theorem resolver_entries {resolver : SecretResolver} (made : (fromReceived received).2 = some resolver) :
    resolver.byPlaceholder = (textPairs received).map fun entry => (placeholderForEnvKey entry.1, entry.2) := by
  unfold fromReceived SecretResolver.fromProviderEnv at made
  split at made
  · cases made
  · cases made
    rfl

theorem lookup_byPlaceholder {resolver : SecretResolver} (made : (fromReceived received).2 = some resolver)
    (text secret : List Char) : resolver.byPlaceholder.lookup text = some secret ↔
      ∃ key value, text = placeholderForEnvKey key.toList ∧ received.lookup key = some value ∧
        secret = value.toList := by
  rw [resolver_entries made]
  have keyed : ∀ key : List Char, ((textPairs received).map fun entry =>
      (placeholderForEnvKey entry.1, entry.2)).lookup (placeholderForEnvKey key) = (textPairs received).lookup key := by
    intro key
    induction textPairs received with
    | nil => rfl
    | cons entry rest ih =>
      rw [List.map_cons, List.lookup_cons, List.lookup_cons, ih]
      by_cases same : key = entry.1
      · rw [same, beq_self_eq_true, beq_self_eq_true]
      · rw [beq_false_of_ne same, beq_false_of_ne (placeholderForEnvKey_injective.ne same)]
  constructor
  · intro found
    obtain ⟨before, after, split, _⟩ := List.lookup_eq_some_iff.1 found
    have member : (text, secret) ∈ (textPairs received).map fun entry => (placeholderForEnvKey entry.1, entry.2) := by
      rw [split]
      exact List.mem_append_right _ List.mem_cons_self
    obtain ⟨entry, _, same⟩ := List.mem_map.1 member
    have text_eq : text = placeholderForEnvKey entry.1 := (congrArg Prod.fst same).symm
    rw [text_eq, keyed, lookup_textPairs] at found
    obtain ⟨value, held, shown⟩ := Option.map_eq_some_iff.1 found
    refine ⟨String.ofList entry.1, value, ?_, held, shown.symm⟩
    rw [text_eq, String.toList_ofList]
  · rintro ⟨key, value, rfl, held, rfl⟩
    rw [keyed, lookup_textPairs, String.ofList_toList, held]
    rfl

theorem resolvePlaceholder_iff (text secret : List Char) :
    ((fromReceived received).2.bind fun resolver => resolver.resolvePlaceholder text) = some secret ↔
      ∃ key value, text = placeholderForEnvKey key.toList ∧ received.lookup key = some value ∧
        validateResolvedSecret value.toList = .ok secret := by
  cases made : (fromReceived received).2 with
  | none =>
    have empty : textPairs received = [] := by
      unfold fromReceived SecretResolver.fromProviderEnv at made
      split at made
      · rename_i none
        exact List.isEmpty_iff.1 none
      · cases made
    constructor
    · intro absurd
      cases absurd
    · rintro ⟨key, value, _, held, _⟩
      have found : (textPairs received).lookup key.toList = some value.toList := by
        rw [lookup_textPairs, String.ofList_toList, held]
        rfl
      rw [empty] at found
      cases found
  | some resolver =>
    rw [Option.bind_some, SecretResolver.resolvePlaceholder]
    constructor
    · intro found
      obtain ⟨held, looked, valid⟩ := Option.bind_eq_some_iff.1 found
      obtain ⟨key, value, same, stored, shown⟩ := (lookup_byPlaceholder made _ _).1 looked
      refine ⟨key, value, same, stored, ?_⟩
      rw [← shown]
      cases checked : validateResolvedSecret held with
      | error problem =>
        rw [checked] at valid
        cases valid
      | ok kept =>
        rw [checked] at valid
        exact congrArg Except.ok (Option.some.inj valid)
    · rintro ⟨key, value, same, stored, valid⟩
      have looked := (lookup_byPlaceholder made _ _).2 ⟨key, value, same, stored, rfl⟩
      refine Option.bind_eq_some_iff.2 ⟨value.toList, looked, ?_⟩
      rw [valid]
      rfl

/-- A program reads the placeholder of a credential, and the proxy puts what the first provider of the sandbox has
stored in its place. -/
theorem credentials_by_placeholder (supervisor : Supervisor)
    (handled : handleGetSandboxProviderEnvironment errors objects sandboxId = .ok environment)
    (arrived : Receives (.ok environment) received) :
    ∃ sandbox spec, sandboxOf objects sandboxId = some sandbox ∧ sandbox.spec = some spec ∧
      Served supervisor received (provided objects spec.providers) := by
  obtain ⟨sandbox, spec, found, specified, lookups⟩ := lookup_handleGetSandboxProviderEnvironment handled
  have given : ∀ key, received.lookup key = provided objects spec.providers key := by
    intro key
    rw [arrived.lookup, lookups]
  refine ⟨sandbox, spec, found, specified, ?_, ?_, ?_⟩
  · intro pty key value held
    rw [← given] at held
    rw [sessionEnv_eq]
    dsimp only
    rw [placeholderOf_some held]
    rfl
  · intro env key value started held absent
    rw [← given] at held
    rw [programEnv_eq] at started
    obtain ⟨proxyVars, chosen, rfl⟩ := Results.ok_of_map started
    obtain ⟨tls, proxy⟩ := @lookup_later supervisor _ absent
    dsimp only
    rw [tls, proxy _ chosen, placeholderOf_some held]
    rfl
  · intro text secret
    rw [resolvePlaceholder_iff]
    simp only [given]

end Secrets

section Example

def sandboxRecord : Server.ObjectRecord Object where
  name := "calm-otter"
  message := .sandbox { id := "sb-1", name := "calm-otter", spec := some { providers := ["github"] } }
  createdAtMs := 1

def githubProvider (token : String) : Server.Provider where
  id := "pr-1"
  name := "github"
  type := "github"
  credentials := (∅ : StringMap String).insert "GITHUB_TOKEN" token

def githubRecord (token : String) : Server.ObjectRecord Object where
  name := "github"
  message := .provider (githubProvider token)
  createdAtMs := 2

theorem githubRecords_distinct (token : String) :
    ([sandboxRecord, githubRecord token].map Server.ObjectRecord.id).Nodup ∧
    ([sandboxRecord, githubRecord token].map Server.ObjectRecord.key).Nodup := by
  have ids : [sandboxRecord, githubRecord token].map Server.ObjectRecord.id = ["sb-1", "pr-1"] := rfl
  have keys : [sandboxRecord, githubRecord token].map Server.ObjectRecord.key =
      [("sandbox", "calm-otter"), ("provider", "github")] := rfl
  rw [ids, keys]
  decide

def githubStore (token : String) : StoredObjects where
  table := ⟨[sandboxRecord, githubRecord token], (githubRecords_distinct token).1⟩
  named := (githubRecords_distinct token).2

theorem githubStore_sandbox (token : String) : sandboxOf (githubStore token) "sb-1" =
    some { id := "sb-1", name := "calm-otter", spec := some { providers := ["github"] } } := by
  simp [sandboxOf, githubStore, sandboxRecord, githubRecord, Server.ObjectRecord.holds, Server.ObjectRecord.id,
    Server.ObjectRecord.objectType, Server.Stored.objectType, Server.Stored.objectId, Object.sandbox?]

theorem githubStore_provider (token name : String) : providerOf (githubStore token) name =
    if name = "github" then some (githubProvider token) else none := by
  split
  · rename_i github
    subst github
    simp [providerOf, Server.Objects.getByName, githubStore, sandboxRecord, githubRecord, Server.ObjectRecord.key,
      Server.ObjectRecord.objectType, Server.Stored.objectType, Object.provider?, githubProvider]
  · rename_i other
    simp [providerOf, Server.Objects.getByName, githubStore, sandboxRecord, githubRecord, Server.ObjectRecord.key,
      Server.ObjectRecord.objectType, Server.Stored.objectType, Ne.symm other]

def githubEnvironment (token : String) : StringMap String := insertCredentials ∅ (githubProvider token)

theorem githubStore_environment (token : String) :
    handleGetSandboxProviderEnvironment {} (githubStore token) "sb-1" = .ok (githubEnvironment token) := by
  have fetched : fetchProvider {} (githubStore token) "github" = .ok (githubProvider token) := by
    simp [fetchProvider, githubStore_provider, Server.attempt, Server.mapInternal, Except.mapError, bind, Except.bind,
      pure, Except.pure]
  have collected : collectCredentials {} (githubStore token) ["github"] ∅ = .ok (githubEnvironment token) := by
    rw [collectCredentials, fetched]
    rfl
  simp only [handleGetSandboxProviderEnvironment, githubStore_sandbox, Server.attempt, Server.mapInternal,
    Except.mapError, bind, Except.bind, resolveProviderEnvironment, List.isEmpty_cons, collected]
  rfl

def supervisorWith (secret : String) : Supervisor where
  inherited key := if key = sshHandshakeSecretEnv then some secret.toList else none
  network := ⟨.proxy, some ⟨none⟩⟩
  runAsUser := none
  homeOf _ := none
  netns := some (some 7)
  caPaths := none

theorem rotated_token_unseen : (supervisorWith "first").programEnv (githubEnvironment "ghp_1") =
      (supervisorWith "second").programEnv (githubEnvironment "ghp_2") ∧
    ∀ pty, (supervisorWith "first").sessionEnv (githubEnvironment "ghp_1") pty =
      (supervisorWith "second").sessionEnv (githubEnvironment "ghp_2") pty := by
  have alike : SameButSecret (supervisorWith "first") (supervisorWith "second") :=
    ⟨fun key other => by simp [supervisorWith, other], rfl⟩
  have same : SameButValues (githubStore "ghp_1") (githubStore "ghp_2") "sb-1" := by
    refine ⟨rfl, ?_⟩
    intro name
    rw [githubStore_provider, githubStore_provider]
    split
    · have keys : keysOf (githubProvider "ghp_1") = keysOf (githubProvider "ghp_2") := by
        funext key
        by_cases own : key = "GITHUB_TOKEN"
        · subst own
          rfl
        · unfold keysOf githubProvider
          dsimp only
          rw [AList.lookup_insert_ne own, AList.lookup_insert_ne own]
      exact congrArg some keys
    · rfl
  refine @programs_learn_no_secret _ _ _ _ _ _ {} "sb-1" alike same ?_ ?_
  · rw [githubStore_environment]
    exact List.Perm.refl _
  · rw [githubStore_environment]
    exact List.Perm.refl _

theorem githubToken_served : ∃ sandbox spec, sandboxOf (githubStore "ghp_1") "sb-1" = some sandbox ∧
    sandbox.spec = some spec ∧
    Served (supervisorWith "first") (githubEnvironment "ghp_1") (provided (githubStore "ghp_1") spec.providers) :=
  credentials_by_placeholder (supervisorWith "first") (githubStore_environment "ghp_1") (List.Perm.refl _)

end Example

end OpenShell.Sandbox.ChildEnv
