import Mathlib.Algebra.Ring.Int.Defs
import OpenShell.Lib.Text
import OpenShell.Lib.Utf8

namespace OpenShell.Sandbox

open Text

/-! The signed preface of an SSH connection, and the nonces kept against its replay. -/

/-- What a server checks prefaces with. `wallSecs` is what the system clock shows, in seconds of the
epoch, at an instant of the monotonic clock; instants are in nanoseconds. -/
structure HandshakeConfig where
  hmacSha256 : List UInt8 → List UInt8 → List Char
  wallSecs : Nat → Int
  secret : List Char
  skewSecs : Nat

abbrev NonceCache := List (List Char × Nat)

def prefaceMagic : List Char := "NSSH1".toList

structure Preface where
  token : List Char
  timestamp : Int
  nonce : Option (List Char)
deriving DecidableEq

inductive ClockError where
  | beforeEpoch
  | outOfRange
deriving DecidableEq

def parseI64 (text : List Char) : Option Int :=
  if text.head? = some '-' then
    if text.tail.isEmpty then none
    else (parseDigits 10 (2 ^ 63 + 1) 0 text.tail).map (fun value => - (value : Int))
  else (parseUnsigned 10 (2 ^ 63) text).map Int.ofNat

def readPreface (line : List Char) : Option (Preface × List Char) :=
  match splitWhitespace line with
  | [magic, token, timestamp, nonce, signature] =>
    if magic = prefaceMagic then some (⟨token, (parseI64 timestamp).getD 0, some nonce⟩, signature) else none
  | [magic, token, timestamp, signature] =>
    if magic = prefaceMagic then some (⟨token, (parseI64 timestamp).getD 0, none⟩, signature) else none
  | _ => none

/-- The payload that is signed; the legacy form has no nonce. -/
def Preface.payload (preface : Preface) : List Char :=
  preface.token ++ '|' :: (toString preface.timestamp).toList ++
    (match preface.nonce with
    | some nonce => '|' :: nonce
    | none => [])

namespace HandshakeConfig

variable (config : HandshakeConfig)

def now (instant : Nat) : Except ClockError Int :=
  if config.wallSecs instant < 0 then .error .beforeEpoch
  else if config.wallSecs instant < 2 ^ 63 then .ok (config.wallSecs instant)
  else .error .outOfRange

/-- The difference is taken in 64 bits and wraps. -/
def withinSkew (now timestamp : Int) : Bool :=
  ((now - timestamp).bmod (2 ^ 64)).natAbs ≤ config.skewSecs

def expected (preface : Preface) : List Char :=
  config.hmacSha256 (utf8Encode config.secret) (utf8Encode preface.payload)

/-- The system clock is read at `readAt`, the nonces are locked at `lockedAt`. -/
def verifyPreface (line : List Char) (readAt lockedAt : Nat) (cache : NonceCache) :
    Except ClockError Bool × NonceCache :=
  match readPreface line with
  | none => (.ok false, cache)
  | some (preface, signature) =>
    match config.now readAt with
    | .error failure => (.error failure, cache)
    | .ok now =>
      if ¬ config.withinSkew now preface.timestamp then (.ok false, cache)
      else if signature ≠ config.expected preface then (.ok false, cache)
      else
        match preface.nonce with
        | none => (.ok true, cache)
        | some nonce =>
          if cache.any (·.1 = nonce) then (.ok false, cache) else (.ok true, (nonce, lockedAt) :: cache)

def ttl : Nat := config.skewSecs * 10 ^ 9

/-- One tick of the reaper. -/
def reap (tick : Nat) (cache : NonceCache) : NonceCache := cache.filter (fun entry => tick - entry.2 < config.ttl)

/-- The preface a call accepts. -/
def acceptedPreface (line : List Char) (readAt lockedAt : Nat) (cache : NonceCache) : Option Preface :=
  match (config.verifyPreface line readAt lockedAt cache).1 with
  | .ok true => (readPreface line).map Prod.fst
  | _ => none

end HandshakeConfig

/-! Runs of a server: calls in the order in which they take the lock, and ticks of the reaper. -/

inductive SshEvent where
  | verify (line : List Char) (readAt lockedAt : Nat)
  | tick (instant : Nat)
deriving DecidableEq

structure SshServer where
  cache : NonceCache
  accepted : List Preface

namespace HandshakeConfig

variable (config : HandshakeConfig)

def step (server : SshServer) : SshEvent → SshServer
  | .verify line readAt lockedAt =>
    { cache := (config.verifyPreface line readAt lockedAt server.cache).2
      accepted := server.accepted ++ (config.acceptedPreface line readAt lockedAt server.cache).toList }
  | .tick instant => { server with cache := config.reap instant server.cache }

def runSshServer (events : List SshEvent) : SshServer := events.foldl config.step ⟨[], []⟩

/-- The call behind `before` accepts the preface and takes the lock at `lockedAt`. -/
def AcceptsAt (before : List SshEvent) (line : List Char) (readAt lockedAt : Nat) (preface : Preface) : Prop :=
  config.acceptedPreface line readAt lockedAt (config.runSshServer before).cache = some preface

/-- The system clock, as a call reads it, is within the skew of the time stamp. -/
def ReadsInTime (readAt : Nat) (preface : Preface) : Prop :=
  ∃ now, config.now readAt = .ok now ∧ config.withinSkew now preface.timestamp = true

/-- After a tick that finds the nonce of an accepted preface too old, no call reads a time at which that
preface is still in time. -/
def ForgetsOnlyExpired (events : List SshEvent) : Prop :=
  ∀ before line readAt lockedAt between instant after preface,
    events = before ++ .verify line readAt lockedAt :: (between ++ .tick instant :: after) →
    config.AcceptsAt before line readAt lockedAt preface → preface.nonce ≠ none →
    config.ttl ≤ instant - lockedAt →
    ∀ other otherRead otherLocked, SshEvent.verify other otherRead otherLocked ∈ after →
      ¬ config.ReadsInTime otherRead preface

variable {config} {line : List Char} {readAt lockedAt : Nat} {cache : NonceCache} {preface : Preface}

/-- A call either leaves the nonces alone, and then accepts at most a legacy preface, or it accepts a preface
that is in time and signed, with a nonce that is new, and records that nonce. -/
theorem verifyPreface_cases (config : HandshakeConfig) (line : List Char) (readAt lockedAt : Nat) (cache : NonceCache) :
    ((config.verifyPreface line readAt lockedAt cache).2 = cache ∧
      ∀ preface, config.acceptedPreface line readAt lockedAt cache = some preface → preface.nonce = none) ∨
    (∃ preface signature nonce, readPreface line = some (preface, signature) ∧ preface.nonce = some nonce ∧
      config.ReadsInTime readAt preface ∧ (∀ inserted, (nonce, inserted) ∉ cache) ∧
      config.verifyPreface line readAt lockedAt cache = (.ok true, (nonce, lockedAt) :: cache)) := by
  unfold acceptedPreface
  cases read : readPreface line with
  | none => simp [verifyPreface, read]
  | some found =>
    obtain ⟨preface, signature⟩ := found
    cases clock : config.now readAt with
    | error failure => simp [verifyPreface, read, clock]
    | ok now =>
      by_cases timely : config.withinSkew now preface.timestamp = true
      · by_cases signed : signature = config.expected preface
        · cases carries : preface.nonce with
          | none => simp [verifyPreface, read, clock, timely, signed, carries]
          | some nonce =>
            by_cases known : cache.any (·.1 = nonce) = true
            · simp [verifyPreface, read, clock, timely, signed, carries, known]
            · right
              have fresh : ∀ inserted, (nonce, inserted) ∉ cache := by
                intro inserted member
                exact known (List.any_eq_true.mpr ⟨_, member, by simp⟩)
              refine ⟨preface, signature, nonce, rfl, carries, ⟨now, clock, timely⟩, fresh, ?_⟩
              simp [verifyPreface, read, clock, timely, signed, carries, known]
        · simp [verifyPreface, read, clock, timely, signed]
      · simp [verifyPreface, read, clock, timely]

theorem verifyPreface_cache : cache <:+ (config.verifyPreface line readAt lockedAt cache).2 := by
  rcases verifyPreface_cases config line readAt lockedAt cache with ⟨kept, _⟩ | ⟨_, _, nonce, _, _, _, _, result⟩
  · rw [kept]
  · rw [result]
    exact List.suffix_cons _ _

theorem acceptedPreface_spec {nonce : List Char}
    (accepted : config.acceptedPreface line readAt lockedAt cache = some preface)
    (carries : preface.nonce = some nonce) :
    config.ReadsInTime readAt preface ∧ (∀ inserted, (nonce, inserted) ∉ cache) ∧
      (config.verifyPreface line readAt lockedAt cache).2 = (nonce, lockedAt) :: cache := by
  rcases verifyPreface_cases config line readAt lockedAt cache with
    ⟨_, legacy⟩ | ⟨found, signature, known, read, held, timely, fresh, result⟩
  · rw [legacy preface accepted] at carries
    cases carries
  · have same : found = preface := by simpa [acceptedPreface, result, read] using accepted
    subst same
    rw [held] at carries
    cases carries
    exact ⟨timely, fresh, by rw [result]⟩

theorem run_append (before : List SshEvent) (event : SshEvent) :
    config.runSshServer (before ++ [event]) = config.step (config.runSshServer before) event := by
  simp [runSshServer]

/-- The nonce of an accepted preface is either held since that call, or a tick came that found it too old. -/
def Remembers (config : HandshakeConfig) (events : List SshEvent) (preface : Preface) (nonce : List Char) : Prop :=
  ∃ before line readAt lockedAt after, events = before ++ .verify line readAt lockedAt :: after ∧
    config.AcceptsAt before line readAt lockedAt preface ∧
    ((nonce, lockedAt) ∈ (config.runSshServer events).cache ∨
      ∃ between instant behind, after = between ++ .tick instant :: behind ∧ config.ttl ≤ instant - lockedAt)

theorem Remembers.step {events : List SshEvent} {nonce : List Char}
    (remembered : config.Remembers events preface nonce) (event : SshEvent) :
    config.Remembers (events ++ [event]) preface nonce := by
  obtain ⟨before, line, readAt, lockedAt, after, cut, accepts, state⟩ := remembered
  refine ⟨before, line, readAt, lockedAt, after ++ [event], by simp [cut], accepts, ?_⟩
  rcases state with held | ⟨between, instant, behind, ticked, old⟩
  · rw [run_append]
    cases event with
    | verify other otherRead otherLocked => exact Or.inl (verifyPreface_cache.subset held)
    | tick instant =>
      by_cases young : instant - lockedAt < config.ttl
      · left
        simpa [HandshakeConfig.step, reap, young] using held
      · right
        exact ⟨after, instant, [], rfl, Nat.le_of_not_lt young⟩
  · right
    exact ⟨between, instant, behind ++ [event], by simp [ticked], old⟩

theorem remembers_of_accepted {nonce : List Char} (carries : preface.nonce = some nonce) (events : List SshEvent)
    (accepted : preface ∈ (config.runSshServer events).accepted) : config.Remembers events preface nonce := by
  induction events using List.reverseRecOn with
  | nil => simp [runSshServer] at accepted
  | append_singleton events event ih =>
    rw [run_append] at accepted
    cases event with
    | tick instant => exact (ih accepted).step _
    | verify line readAt lockedAt =>
      rcases List.mem_append.mp accepted with earlier | here
      · exact (ih earlier).step _
      · have accepts : config.AcceptsAt events line readAt lockedAt preface := by simpa [AcceptsAt] using here
        refine ⟨events, line, readAt, lockedAt, [], rfl, accepts, Or.inl ?_⟩
        rw [run_append]
        simp [HandshakeConfig.step, (acceptedPreface_spec accepts carries).2.2]

theorem ForgetsOnlyExpired.before {events : List SshEvent} {event : SshEvent}
    (expired : config.ForgetsOnlyExpired (events ++ [event])) : config.ForgetsOnlyExpired events := by
  intro before line readAt lockedAt between instant after preface cut accepts carries old other otherRead otherLocked
    member
  apply expired before line readAt lockedAt between instant (after ++ [event]) preface (by simp [cut]) accepts carries
    old other otherRead otherLocked
  exact List.mem_append_left _ member

/-- A call that accepts a preface the run has accepted before takes the lock after a tick that dropped the nonce. -/
theorem notMem_accepted {events : List SshEvent} {nonce : List Char}
    (expired : config.ForgetsOnlyExpired (events ++ [.verify line readAt lockedAt]))
    (accepts : config.AcceptsAt events line readAt lockedAt preface) (carries : preface.nonce = some nonce) :
    preface ∉ (config.runSshServer events).accepted := by
  intro earlier
  obtain ⟨timely, fresh, _⟩ := acceptedPreface_spec accepts carries
  obtain ⟨before, first, firstRead, firstLocked, after, cut, acceptedFirst, state⟩ :=
    remembers_of_accepted carries events earlier
  rcases state with held | ⟨between, instant, behind, ticked, old⟩
  · exact fresh firstLocked held
  · have given : preface.nonce ≠ none := by simp [carries]
    apply expired before first firstRead firstLocked between instant (behind ++ [.verify line readAt lockedAt]) preface
      (by simp [cut, ticked]) acceptedFirst given old line readAt lockedAt _ timely
    exact List.mem_append_right _ (by simp)

/-- Once its nonce is forgotten, a signed preface that is still in time is accepted again. -/
theorem replay_accepted {events : List SshEvent} {nonce : List Char} (carries : preface.nonce = some nonce)
    (read : readPreface line = some (preface, config.expected preface)) (timely : config.ReadsInTime readAt preface)
    (forgotten : ∀ inserted, (nonce, inserted) ∉ (config.runSshServer events).cache) :
    (config.runSshServer (events ++ [.verify line readAt lockedAt])).accepted =
      (config.runSshServer events).accepted ++ [preface] := by
  obtain ⟨now, clock, close⟩ := timely
  have unknown : (config.runSshServer events).cache.any (·.1 = nonce) = false := by
    apply List.any_eq_false.mpr
    intro entry member
    have apart : entry.1 ≠ nonce := by
      intro same
      exact forgotten entry.2 (same ▸ member)
    simpa using apart
  have accepts : config.acceptedPreface line readAt lockedAt (config.runSshServer events).cache = some preface := by
    simp only [acceptedPreface, verifyPreface, read, clock, close, carries, unknown]
    simp
  simp [run_append, HandshakeConfig.step, accepts]

/-- Each preface with a nonce is accepted at most once, as long as nonces outlive the prefaces they stand for. -/
theorem accepted_at_most_once (config : HandshakeConfig) (events : List SshEvent)
    (expired : config.ForgetsOnlyExpired events) (token : List Char) (timestamp : Int) (nonce : List Char) :
    (config.runSshServer events).accepted.count ⟨token, timestamp, some nonce⟩ ≤ 1 := by
  induction events using List.reverseRecOn with
  | nil => simp [runSshServer]
  | append_singleton events event ih =>
    have held := ih expired.before
    rw [run_append]
    cases event with
    | tick instant => exact held
    | verify line readAt lockedAt =>
      by_cases accepts : config.AcceptsAt events line readAt lockedAt ⟨token, timestamp, some nonce⟩
      · have first := List.count_eq_zero.mpr (notMem_accepted expired accepts rfl)
        have found := accepts
        unfold AcceptsAt at found
        simp [HandshakeConfig.step, List.count_append, first, found]
      · have other : (config.acceptedPreface line readAt lockedAt (config.runSshServer events).cache).toList.count
            ⟨token, timestamp, some nonce⟩ = 0 := by
          apply List.count_eq_zero.mpr
          intro member
          exact accepts (by simpa [AcceptsAt] using member)
        simpa [HandshakeConfig.step, List.count_append, other] using held

end HandshakeConfig

/-- A gateway whose signatures are all the same text, on clocks that run together. -/
def steadyHandshake : HandshakeConfig :=
  { hmacSha256 := fun _ _ => "5f".toList
    wallSecs := fun instant => instant / 10 ^ 9
    secret := "secret".toList
    skewSecs := 300 }

def futurePreface : List Char := "NSSH1 tok 1200 n1 5f".toList

/-- Dated 200 seconds ahead, the preface is still in time 400 seconds after it was first accepted. -/
theorem future_preface_accepted_twice :
    ¬ ∀ (config : HandshakeConfig) (events : List SshEvent) (token : List Char) (timestamp : Int) (nonce : List Char),
      (config.runSshServer events).accepted.count ⟨token, timestamp, some nonce⟩ ≤ 1 := by
  intro once
  have twice := once steadyHandshake
    [.verify futurePreface (1000 * 10 ^ 9) (1000 * 10 ^ 9), .tick (1300 * 10 ^ 9),
      .verify futurePreface (1400 * 10 ^ 9) (1400 * 10 ^ 9)] "tok".toList 1200 "n1".toList
  revert twice
  decide +kernel

def pastPreface : List Char := "NSSH1 tok 900 n1 5f".toList

/-- Dated 100 seconds back, the preface is out of date when its nonce is forgotten. -/
theorem past_preface_accepted_once :
    (steadyHandshake.runSshServer
      [.verify pastPreface (1000 * 10 ^ 9) (1000 * 10 ^ 9), .tick (1300 * 10 ^ 9),
        .verify pastPreface (1300 * 10 ^ 9) (1300 * 10 ^ 9)]).accepted.count
      ⟨"tok".toList, 900, some "n1".toList⟩ ≤ 1 := by
  apply HandshakeConfig.accepted_at_most_once
  intro before line readAt lockedAt between instant after preface cut accepts carries old other otherRead otherLocked
    member timely
  have first : before = [] := by
    rcases before with _ | ⟨_, _ | ⟨_, _ | ⟨_, _⟩⟩⟩
    · rfl
    all_goals simp at cut
  subst first
  have direct : between = [] := by
    rcases between with _ | ⟨_, _ | ⟨_, _⟩⟩
    · rfl
    all_goals simp at cut
  subst direct
  simp only [List.nil_append, List.cons.injEq, SshEvent.verify.injEq, SshEvent.tick.injEq] at cut
  obtain ⟨⟨rfl, rfl, rfl⟩, rfl, rfl⟩ := cut
  simp only [List.mem_singleton, SshEvent.verify.injEq] at member
  obtain ⟨rfl, rfl, rfl⟩ := member
  have found : steadyHandshake.acceptedPreface pastPreface (1000 * 10 ^ 9) (1000 * 10 ^ 9)
      (steadyHandshake.runSshServer []).cache = some ⟨"tok".toList, 900, some "n1".toList⟩ := by
    decide +kernel
  have same := Option.some.inj (accepts.symm.trans found)
  subst same
  obtain ⟨now, clock, close⟩ := timely
  have late : steadyHandshake.now (1300 * 10 ^ 9) = .ok 1300 := by decide +kernel
  have shown := Except.ok.inj (clock.symm.trans late)
  subst shown
  revert close
  decide +kernel

end OpenShell.Sandbox
