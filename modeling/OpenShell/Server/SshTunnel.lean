import OpenShell.Lib.Counters
import OpenShell.Lib.IpAddr
import OpenShell.Lib.Machine
import OpenShell.Lib.Text

namespace OpenShell.Server.Ssh

/-! The SSH tunnels of the gateway, and the two maps that count them by token and by sandbox. -/

def maxConnectionsPerToken : Nat := 3

def maxConnectionsPerSandbox : Nat := 20

inductive StatusCode where
  | badRequest
  | unauthorized
  | notFound
  | methodNotAllowed
  | preconditionFailed
  | tooManyRequests
  | internalServerError
  | badGateway
deriving DecidableEq

inductive ConnectTarget where
  | ip (address : Net.IpAddr) (port : UInt16)
  | host (name : String) (port : UInt16)

structure Request where
  method : String
  header : String → Option (List UInt8)

structure SshSession where
  sandboxId : String
  revoked : Bool
  expiresAtMs : Int

structure Sandbox where
  name : String
  phase : Int
  agentPod : Option String

def phaseReady : Int := 2

/-- What a request finds outside: the store and the cluster may fail, and answer each request as they like. -/
structure Gateway where
  session : String → Except Unit (Option SshSession)
  sandbox : String → Except Unit (Option Sandbox)
  agentPodIp : String → Except Unit (Option Net.IpAddr)
  nowMs : Int
  sandboxNamespace : String
  sandboxSshPort : UInt16

def isVisibleAscii (byte : UInt8) : Bool := (32 ≤ byte && byte < 127) || byte = 9

def headerValue (request : Request) (name : String) : Except StatusCode String :=
  match request.header name with
  | none => .error .unauthorized
  | some bytes =>
    if bytes.all isVisibleAscii then
      let value := Text.trim (bytes.map fun byte => Char.ofNat byte.toNat)
      if value.isEmpty then .error .badRequest else .ok (String.ofList value)
    else .error .badRequest

def connectTarget (gateway : Gateway) (sandbox : Sandbox) : Except StatusCode ConnectTarget :=
  match sandbox.agentPod.filter (· ≠ "") with
  | some pod =>
    match gateway.agentPodIp pod with
    | .ok (some address) => .ok (.ip address gateway.sandboxSshPort)
    | .ok none => .error .badGateway
    | .error _ => .error .badGateway
  | none =>
    if sandbox.name ≠ "" then
      .ok (.host (sandbox.name ++ "." ++ gateway.sandboxNamespace ++ ".svc.cluster.local") gateway.sandboxSshPort)
    else .error .preconditionFailed

structure Ticket where
  token : String
  sandboxId : String
  target : ConnectTarget

/-- What `ssh_connect` checks before it counts a request. -/
def authorize (gateway : Gateway) (request : Request) : Except StatusCode Ticket := do
  if request.method ≠ "CONNECT" then throw .methodNotAllowed
  let sandboxId ← headerValue request "x-sandbox-id"
  let token ← headerValue request "x-sandbox-token"
  let session ←
    match gateway.session token with
    | .ok (some session) => pure session
    | .ok none => throw .unauthorized
    | .error _ => throw .internalServerError
  if session.revoked ∨ session.sandboxId ≠ sandboxId then throw .unauthorized
  if 0 < session.expiresAtMs ∧ session.expiresAtMs < gateway.nowMs then throw .unauthorized
  let sandbox ←
    match gateway.sandbox sandboxId with
    | .ok (some sandbox) => pure sandbox
    | .ok none => throw .notFound
    | .error _ => throw .internalServerError
  if sandbox.phase ≠ phaseReady then throw .preconditionFailed
  let target ← connectTarget gateway sandbox
  return ⟨token, sandboxId, target⟩

/-- How far an authorised request has come. A request that rolls back holds the lock of the sandbox counters. -/
inductive Stage where
  | arrived
  | tokenAdmitted
  | rollingBack
  | running
  | tokenReleased
  | released
  | refused (status : StatusCode)
deriving DecidableEq

def Stage.holdsToken : Stage → Bool
  | .tokenAdmitted | .rollingBack | .running => true
  | .arrived | .tokenReleased | .released | .refused _ => false

def Stage.holdsSandbox : Stage → Bool
  | .running | .tokenReleased => true
  | .arrived | .tokenAdmitted | .rollingBack | .released | .refused _ => false

/-- The next step takes one from the counter of the token. -/
def Stage.decrementsToken (stage : Stage) : Prop := stage = .rollingBack ∨ stage = .running

def Stage.decrementsSandbox (stage : Stage) : Prop := stage = .tokenReleased

structure Tunnel extends Ticket where
  stage : Stage

def Tunnel.inProgress (tunnel : Tunnel) : Bool := tunnel.stage.holdsToken || tunnel.stage.holdsSandbox

structure ServerState where
  sshConnectionsByToken : Counters.Counts String := ∅
  sshConnectionsBySandbox : Counters.Counts String := ∅
  tunnels : List Tunnel := []

def ServerState.sandboxLocked (state : ServerState) : Bool := state.tunnels.any (·.stage = .rollingBack)

def ServerState.move (state : ServerState) (position : Nat) (tunnel : Tunnel) (stage : Stage) : ServerState :=
  { state with tunnels := state.tunnels.set position { tunnel with stage } }

def decrementConnectionCount (counts : Counters.Counts String) (key : String) : Counters.Counts String :=
  Counters.release counts key

def admitToken (state : ServerState) (position : Nat) (tunnel : Tunnel) : ServerState :=
  let admitted := Counters.enter maxConnectionsPerToken state.sshConnectionsByToken tunnel.token
  { state with sshConnectionsByToken := admitted.2 }.move position tunnel
    (if admitted.1 then .tokenAdmitted else .refused .tooManyRequests)

def admitSandbox (state : ServerState) (position : Nat) (tunnel : Tunnel) : ServerState :=
  let admitted := Counters.enter maxConnectionsPerSandbox state.sshConnectionsBySandbox tunnel.sandboxId
  { state with sshConnectionsBySandbox := admitted.2 }.move position tunnel
    (if admitted.1 then .running else .rollingBack)

def releaseToken (state : ServerState) (position : Nat) (tunnel : Tunnel) (stage : Stage) : ServerState :=
  { state with
    sshConnectionsByToken := decrementConnectionCount state.sshConnectionsByToken tunnel.token }.move
      position tunnel stage

def releaseSandbox (state : ServerState) (position : Nat) (tunnel : Tunnel) : ServerState :=
  { state with
    sshConnectionsBySandbox := decrementConnectionCount state.sshConnectionsBySandbox tunnel.sandboxId }.move
      position tunnel .released

/-- The next critical section of a request, or its wait for the lock of the sandbox counters. -/
def advance (state : ServerState) (position : Nat) : ServerState :=
  match state.tunnels[position]? with
  | none => state
  | some tunnel =>
    match tunnel.stage with
    | .arrived => admitToken state position tunnel
    | .tokenAdmitted => if state.sandboxLocked then state else admitSandbox state position tunnel
    | .rollingBack => releaseToken state position tunnel (.refused .tooManyRequests)
    | .running => releaseToken state position tunnel .tokenReleased
    | .tokenReleased => if state.sandboxLocked then state else releaseSandbox state position tunnel
    | .released => state
    | .refused _ => state

def arrive (state : ServerState) (gateway : Gateway) (request : Request) : ServerState :=
  match authorize gateway request with
  | .error _ => state
  | .ok ticket => { state with tunnels := state.tunnels ++ [{ ticket with stage := .arrived }] }

inductive Event where
  | connect (gateway : Gateway) (request : Request)
  | advance (position : Nat)

def step (state : ServerState) : Event → ServerState
  | .connect gateway request => arrive state gateway request
  | .advance position => advance state position

/-! What the counters say of the requests. -/

section Holders

variable (keyOf : Ticket → String) (holds : Stage → Bool)

def holders (tunnels : List Tunnel) (key : String) : Nat :=
  tunnels.countP fun tunnel => keyOf tunnel.toTicket = key && holds tunnel.stage

variable {tunnels : List Tunnel} {position : Nat} {tunnel : Tunnel} {stage : Stage}

theorem holders_set (stage : Stage) (found : tunnels[position]? = some tunnel) (key : String) :
    holders keyOf holds (tunnels.set position { tunnel with stage }) key +
        (if keyOf tunnel.toTicket = key ∧ holds tunnel.stage then 1 else 0) =
      holders keyOf holds tunnels key + if keyOf tunnel.toTicket = key ∧ holds stage then 1 else 0 := by
  simpa [holders] using List.countP_set_add
    (fun tunnel => decide (keyOf tunnel.toTicket = key) && holds tunnel.stage) { tunnel with stage } found

variable {keyOf holds}

theorem holders_same (found : tunnels[position]? = some tunnel) (same : holds tunnel.stage = holds stage) :
    holders keyOf holds (tunnels.set position { tunnel with stage }) = holders keyOf holds tunnels := by
  funext key
  have counts := holders_set keyOf holds stage found key
  rw [← same] at counts
  omega

theorem holders_gain (found : tunnels[position]? = some tunnel) (before : holds tunnel.stage = false)
    (after : holds stage = true) (key : String) :
    holders keyOf holds (tunnels.set position { tunnel with stage }) key =
      holders keyOf holds tunnels key + if key = keyOf tunnel.toTicket then 1 else 0 := by
  have counts := holders_set keyOf holds stage found key
  simpa [before, after, eq_comm (a := key)] using counts

theorem holders_loss (found : tunnels[position]? = some tunnel) (before : holds tunnel.stage = true)
    (after : holds stage = false) (key : String) :
    holders keyOf holds (tunnels.set position { tunnel with stage }) key +
      (if key = keyOf tunnel.toTicket then 1 else 0) = holders keyOf holds tunnels key := by
  have counts := holders_set keyOf holds stage found key
  simpa [before, after, eq_comm (a := key)] using counts

theorem holders_append (outside : holds tunnel.stage = false) :
    holders keyOf holds (tunnels ++ [tunnel]) = holders keyOf holds tunnels := by
  funext key
  simp [holders, outside]

theorem holders_pos (member : tunnel ∈ tunnels) (held : holds tunnel.stage = true) :
    0 < holders keyOf holds tunnels (keyOf tunnel.toTicket) := by
  apply List.countP_pos_iff.mpr
  exact ⟨tunnel, member, by simp [held]⟩

theorem holders_zero (unheld : ∀ tunnel ∈ tunnels, holds tunnel.stage = false) (key : String) :
    holders keyOf holds tunnels key = 0 := by
  apply List.countP_eq_zero.mpr
  intro tunnel member
  simp [unheld tunnel member]

theorem within_set {limit : Nat} {counts : Counters.Counts String}
    (within : Counters.Within limit counts (holders keyOf holds tunnels)) (found : tunnels[position]? = some tunnel)
    (same : holds tunnel.stage = holds stage) :
    Counters.Within limit counts (holders keyOf holds (tunnels.set position { tunnel with stage })) := by
  rw [holders_same found same]
  exact within

end Holders

abbrev tokenHolders : List Tunnel → String → Nat := holders Ticket.token Stage.holdsToken

abbrev sandboxHolders : List Tunnel → String → Nat := holders Ticket.sandboxId Stage.holdsSandbox

/-- A request counts for its token from its first admission on, also while it waits for the second one or rolls
    back, and for its sandbox until its own decrement, which comes after the one for the token. -/
structure Counted (state : ServerState) : Prop where
  tokens : Counters.Within maxConnectionsPerToken state.sshConnectionsByToken (tokenHolders state.tunnels)
  sandboxes : Counters.Within maxConnectionsPerSandbox state.sshConnectionsBySandbox (sandboxHolders state.tunnels)

namespace Counted

variable {state : ServerState} {position : Nat} {tunnel : Tunnel}

theorem admitToken (counted : Counted state) (found : state.tunnels[position]? = some tunnel)
    (arrived : tunnel.stage = .arrived) : Counted (admitToken state position tunnel) := by
  have outside : Stage.holdsToken tunnel.stage = false := by rw [arrived]; rfl
  have apart : Stage.holdsSandbox tunnel.stage = false := by rw [arrived]; rfl
  cases passed : (Counters.enter maxConnectionsPerToken state.sshConnectionsByToken tunnel.token).1 with
  | true =>
    simp only [Ssh.admitToken, ServerState.move, passed, if_true]
    exact ⟨counted.tokens.admitted passed (holders_gain found outside rfl), within_set counted.sandboxes found apart⟩
  | false =>
    have refused := counted.tokens.refused (by decide) passed
    simp only [Ssh.admitToken, ServerState.move, passed, Bool.false_eq_true, if_false]
    exact ⟨within_set refused found outside, within_set counted.sandboxes found apart⟩

theorem admitSandbox (counted : Counted state) (found : state.tunnels[position]? = some tunnel)
    (waiting : tunnel.stage = .tokenAdmitted) : Counted (admitSandbox state position tunnel) := by
  have inside : Stage.holdsToken tunnel.stage = true := by rw [waiting]; rfl
  have apart : Stage.holdsSandbox tunnel.stage = false := by rw [waiting]; rfl
  cases passed : (Counters.enter maxConnectionsPerSandbox state.sshConnectionsBySandbox tunnel.sandboxId).1 with
  | true =>
    simp only [Ssh.admitSandbox, ServerState.move, passed, if_true]
    exact ⟨within_set counted.tokens found inside, counted.sandboxes.admitted passed (holders_gain found apart rfl)⟩
  | false =>
    have refused := counted.sandboxes.refused (by decide) passed
    simp only [Ssh.admitSandbox, ServerState.move, passed, Bool.false_eq_true, if_false]
    exact ⟨within_set counted.tokens found inside, within_set refused found apart⟩

theorem releaseToken (counted : Counted state) (found : state.tunnels[position]? = some tunnel) {stage : Stage}
    (before : tunnel.stage.holdsToken = true) (after : stage.holdsToken = false)
    (same : tunnel.stage.holdsSandbox = stage.holdsSandbox) : Counted (releaseToken state position tunnel stage) :=
  ⟨counted.tokens.released (holders_loss found before after), within_set counted.sandboxes found same⟩

theorem releaseSandbox (counted : Counted state) (found : state.tunnels[position]? = some tunnel)
    (finishing : tunnel.stage = .tokenReleased) : Counted (releaseSandbox state position tunnel) := by
  have outside : Stage.holdsToken tunnel.stage = false := by rw [finishing]; rfl
  have inside : Stage.holdsSandbox tunnel.stage = true := by rw [finishing]; rfl
  exact ⟨within_set counted.tokens found outside, counted.sandboxes.released (holders_loss found inside rfl)⟩

theorem advance (counted : Counted state) (position : Nat) : Counted (advance state position) := by
  unfold Ssh.advance
  split
  · exact counted
  · rename_i tunnel found
    split
    · exact counted.admitToken found ‹_›
    · split
      · exact counted
      · exact counted.admitSandbox found ‹_›
    · rename_i rolling
      exact counted.releaseToken found (by rw [rolling]; rfl) rfl (by rw [rolling]; rfl)
    · rename_i running
      exact counted.releaseToken found (by rw [running]; rfl) rfl (by rw [running]; rfl)
    · split
      · exact counted
      · exact counted.releaseSandbox found ‹_›
    · exact counted
    · exact counted

theorem arrive (counted : Counted state) (gateway : Gateway) (request : Request) :
    Counted (arrive state gateway request) := by
  unfold Ssh.arrive
  split
  · exact counted
  · refine ⟨?_, ?_⟩
    · rw [tokenHolders, holders_append rfl]
      exact counted.tokens
    · rw [sandboxHolders, holders_append rfl]
      exact counted.sandboxes

theorem step (counted : Counted state) (event : Event) : Counted (step state event) := by
  cases event with
  | connect gateway request => exact counted.arrive gateway request
  | advance position => exact counted.advance position

end Counted

theorem counted_run (events : List Event) : Counted (Machine.run step {} events) := by
  apply Machine.run_invariant
  · intro state event _ counted
    exact counted.step event
  · exact ⟨⟨Counters.exact_empty, fun _ => Nat.zero_le _⟩, ⟨Counters.exact_empty, fun _ => Nat.zero_le _⟩⟩

/-- Every request that is about to take one from a counter finds it there. -/
structure Accounted (state : ServerState) : Prop where
  tokenCount : ∀ token, (state.sshConnectionsByToken.lookup token).getD 0 = tokenHolders state.tunnels token
  tokenLimit : ∀ token, (state.sshConnectionsByToken.lookup token).getD 0 ≤ maxConnectionsPerToken
  sandboxCount : ∀ sandboxId,
    (state.sshConnectionsBySandbox.lookup sandboxId).getD 0 = sandboxHolders state.tunnels sandboxId
  sandboxLimit : ∀ sandboxId, (state.sshConnectionsBySandbox.lookup sandboxId).getD 0 ≤ maxConnectionsPerSandbox
  tokenDecrement : ∀ tunnel ∈ state.tunnels, tunnel.stage.decrementsToken →
    ∃ count, state.sshConnectionsByToken.lookup tunnel.token = some (count + 1)
  sandboxDecrement : ∀ tunnel ∈ state.tunnels, tunnel.stage.decrementsSandbox →
    ∃ count, state.sshConnectionsBySandbox.lookup tunnel.sandboxId = some (count + 1)
  tokenStored : ∀ token, state.sshConnectionsByToken.lookup token ≠ some 0
  sandboxStored : ∀ sandboxId, state.sshConnectionsBySandbox.lookup sandboxId ≠ some 0
  idle : (∀ tunnel ∈ state.tunnels, tunnel.inProgress = false) →
    state.sshConnectionsByToken = ∅ ∧ state.sshConnectionsBySandbox = ∅

theorem decrement_finds {counts : Counters.Counts String} {holders : String → Nat} {key : String}
    (exact : Counters.Exact counts holders) (held : 0 < holders key) : ∃ count, counts.lookup key = some (count + 1) :=
  ⟨holders key - 1, by rw [exact.held held, Nat.sub_add_cancel held]⟩

theorem Counted.accounted {state : ServerState} (counted : Counted state) : Accounted state where
  tokenCount := counted.tokens.exact.count
  tokenLimit token := by
    rw [counted.tokens.exact.count]
    exact counted.tokens.limited token
  sandboxCount := counted.sandboxes.exact.count
  sandboxLimit sandboxId := by
    rw [counted.sandboxes.exact.count]
    exact counted.sandboxes.limited sandboxId
  tokenDecrement tunnel member decrements := by
    have held : tunnel.stage.holdsToken = true := by
      rcases decrements with rolling | running
      · rw [rolling]; rfl
      · rw [running]; rfl
    exact decrement_finds counted.tokens.exact (holders_pos member held)
  sandboxDecrement tunnel member decrements := by
    have held : tunnel.stage.holdsSandbox = true := by rw [decrements]; rfl
    exact decrement_finds counted.sandboxes.exact (holders_pos member held)
  tokenStored := counted.tokens.exact.nonzero
  sandboxStored := counted.sandboxes.exact.nonzero
  idle finished := by
    have unheld : ∀ tunnel ∈ state.tunnels,
        tunnel.stage.holdsToken = false ∧ tunnel.stage.holdsSandbox = false := by
      intro tunnel member
      exact Bool.or_eq_false_iff.mp (finished tunnel member)
    refine ⟨counted.tokens.exact.eq_empty ?_, counted.sandboxes.exact.eq_empty ?_⟩
    · exact holders_zero fun tunnel member => (unheld tunnel member).1
    · exact holders_zero fun tunnel member => (unheld tunnel member).2

theorem tunnels_accounted (events : List Event) : Accounted (Machine.run step {} events) :=
  (counted_run events).accounted

end OpenShell.Server.Ssh
