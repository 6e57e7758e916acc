import OpenShell.Lib.Machine
import OpenShell.Lib.Text

namespace OpenShell.Sandbox

open Text Machine

/-! The identity cache of binaries: trust on first use, with calls that overlap and files that are replaced. -/

structure FileFingerprint where
  len : Nat
  mtimeSec : Int
  mtimeNsec : Int
  ctimeSec : Int
  ctimeNsec : Int
  dev : Nat
  ino : Nat
deriving DecidableEq

structure CachedBinary where
  hash : String
  fingerprint : FileFingerprint
deriving DecidableEq

inductive ReadFault where
  | opening (reason : String)
  | reading (reason : String)
deriving DecidableEq

/-- A file as a path may refer to it. With a fault it can be looked at and not be read. -/
structure BinaryFile where
  fingerprint : FileFingerprint
  content : List UInt8
  fault : Option ReadFault
deriving DecidableEq

/-- What a path refers to at a moment; an error is the reason the system gives. -/
abbrev PathEntry := Except String BinaryFile

def statFailed (path reason : String) : String := "Failed to stat " ++ path ++ ": " ++ reason

def openFailed (path reason : String) : String := "Failed to open " ++ path ++ ": " ++ reason

def readFailed (path reason : String) : String := "Failed to read " ++ path ++ ": " ++ reason

def integrityViolation (path cached current : String) : String :=
  "Binary integrity violation: " ++ path ++ " hash changed (cached: " ++ cached ++ ", current: " ++ current ++ ")"

variable (sha256 : List UInt8 → List UInt8)

def contentHash (content : List UInt8) : String := hexEncode (sha256 content)

def fileSha256 (path : String) : PathEntry → Except String String
  | .error reason => .error (openFailed path reason)
  | .ok file =>
    match file.fault with
    | some (.opening reason) => .error (openFailed path reason)
    | some (.reading reason) => .error (readFailed path reason)
    | none => .ok (contentHash sha256 file.content)

/-- How far a call of `verify_or_cache` has come. -/
inductive VerifyPhase where
  | begun
  | statted (fingerprint : FileFingerprint)
  | missed (fingerprint : FileFingerprint)
  | hashed (fingerprint : FileFingerprint) (hash : String)
  | returned (result : Except String String)
deriving DecidableEq

def VerifyPhase.ended : VerifyPhase → Bool
  | returned _ => true
  | _ => false

abbrev HashCache := String → Option CachedBinary

/-- One step of a call: stat, cache lookup, hash, or the locked check and insert. -/
def verifyOrCache (path : String) (entry : PathEntry) (hashes : HashCache) : VerifyPhase → VerifyPhase × HashCache
  | .begun =>
    match entry with
    | .error reason => (.returned (.error (statFailed path reason)), hashes)
    | .ok file => (.statted file.fingerprint, hashes)
  | .statted fingerprint =>
    match hashes path with
    | some cached =>
      if cached.fingerprint = fingerprint then (.returned (.ok cached.hash), hashes) else (.missed fingerprint, hashes)
    | none => (.missed fingerprint, hashes)
  | .missed fingerprint =>
    match fileSha256 sha256 path entry with
    | .error message => (.returned (.error message), hashes)
    | .ok hash => (.hashed fingerprint hash, hashes)
  | .hashed fingerprint hash =>
    match hashes path with
    | some existing =>
      if existing.hash ≠ hash then (.returned (.error (integrityViolation path existing.hash hash)), hashes)
      else (.returned (.ok hash), Function.update hashes path (some ⟨hash, fingerprint⟩))
    | none => (.returned (.ok hash), Function.update hashes path (some ⟨hash, fingerprint⟩))
  | .returned result => (.returned result, hashes)

/-- A call, with all that its path has referred to while it runs. -/
structure VerifyCall where
  path : String
  phase : VerifyPhase
  seen : List PathEntry
deriving DecidableEq

structure IdentityState where
  files : String → PathEntry
  hashes : HashCache
  calls : List VerifyCall

inductive IdentityEvent where
  | start (path : String)
  | advance (position : Nat)
  | replace (path : String) (entry : PathEntry)

def VerifyCall.witness (path : String) (entry : PathEntry) (call : VerifyCall) : VerifyCall :=
  if call.path = path ∧ call.phase.ended = false then { call with seen := call.seen ++ [entry] } else call

namespace IdentityState

def step (state : IdentityState) : IdentityEvent → IdentityState
  | .start path => { state with calls := state.calls ++ [⟨path, .begun, [state.files path]⟩] }
  | .advance position =>
    match state.calls[position]? with
    | none => state
    | some call =>
      let next := verifyOrCache sha256 call.path (state.files call.path) state.hashes call.phase
      { state with hashes := next.2, calls := state.calls.set position { call with phase := next.1 } }
  | .replace path entry =>
    { state with files := Function.update state.files path entry, calls := state.calls.map (·.witness path entry) }

def initial (files : String → PathEntry) : IdentityState := ⟨files, fun _ => none, []⟩

end IdentityState

/-! What one step of a call can do. -/

section Steps

inductive VerifyStep (path : String) (entry : PathEntry) (hashes : HashCache) :
    VerifyPhase → VerifyPhase → HashCache → Prop
  | statFails {message : String} : VerifyStep path entry hashes .begun (.returned (.error message)) hashes
  | stat {file : BinaryFile} (found : entry = .ok file) :
    VerifyStep path entry hashes .begun (.statted file.fingerprint) hashes
  | hit {cached : CachedBinary} (held : hashes path = some cached) :
    VerifyStep path entry hashes (.statted cached.fingerprint) (.returned (.ok cached.hash)) hashes
  | miss {fingerprint : FileFingerprint} :
    VerifyStep path entry hashes (.statted fingerprint) (.missed fingerprint) hashes
  | hashFails {fingerprint : FileFingerprint} {message : String} :
    VerifyStep path entry hashes (.missed fingerprint) (.returned (.error message)) hashes
  | hash {fingerprint : FileFingerprint} {file : BinaryFile} (found : entry = .ok file) :
    VerifyStep path entry hashes (.missed fingerprint) (.hashed fingerprint (contentHash sha256 file.content)) hashes
  | refuse {fingerprint : FileFingerprint} {hash message : String} :
    VerifyStep path entry hashes (.hashed fingerprint hash) (.returned (.error message)) hashes
  | insert {fingerprint : FileFingerprint} {hash : String}
      (agrees : ∀ existing, hashes path = some existing → existing.hash = hash) :
    VerifyStep path entry hashes (.hashed fingerprint hash) (.returned (.ok hash))
      (Function.update hashes path (some ⟨hash, fingerprint⟩))
  | ended {result : Except String String} :
    VerifyStep path entry hashes (.returned result) (.returned result) hashes

theorem verifyStep (path : String) (entry : PathEntry) (hashes : HashCache) (phase : VerifyPhase) :
    VerifyStep sha256 path entry hashes phase (verifyOrCache sha256 path entry hashes phase).1
      (verifyOrCache sha256 path entry hashes phase).2 := by
  cases phase with
  | begun =>
    cases entry with
    | error reason => exact .statFails
    | ok file => exact .stat rfl
  | statted fingerprint =>
    cases held : hashes path with
    | none =>
      simp only [verifyOrCache, held]
      exact .miss
    | some cached =>
      by_cases same : cached.fingerprint = fingerprint
      · simp only [verifyOrCache, held, same, if_true]
        exact same ▸ .hit held
      · simp only [verifyOrCache, held, same, if_false]
        exact .miss
  | missed fingerprint =>
    cases entry with
    | error reason => exact .hashFails
    | ok file =>
      cases fault : file.fault with
      | none =>
        simp only [verifyOrCache, fileSha256, fault]
        exact .hash rfl
      | some broken =>
        cases broken with
        | opening reason =>
          simp only [verifyOrCache, fileSha256, fault]
          exact .hashFails
        | reading reason =>
          simp only [verifyOrCache, fileSha256, fault]
          exact .hashFails
  | hashed fingerprint hash =>
    cases held : hashes path with
    | none =>
      simp only [verifyOrCache, held]
      exact .insert (by simp [held])
    | some existing =>
      by_cases same : existing.hash = hash
      · simp only [verifyOrCache, held, same, ne_eq, not_true_eq_false, if_false]
        exact .insert (by simp [held, same])
      · simp only [verifyOrCache, held, same, ne_eq, not_false_eq_true, if_true]
        exact .refuse
  | returned result => exact .ended

variable {sha256} {path : String} {entry : PathEntry} {hashes next : HashCache} {phase later : VerifyPhase}

/-- A stored hash stays, also for other paths. -/
theorem VerifyStep.keeps (taken : VerifyStep sha256 path entry hashes phase later next) {other : String}
    {cached : CachedBinary} (held : hashes other = some cached) :
    ∃ kept, next other = some kept ∧ kept.hash = cached.hash := by
  cases taken with
  | insert agrees =>
    rename_i fingerprint hash
    by_cases same : other = path
    · subst same
      refine ⟨⟨hash, fingerprint⟩, Function.update_self .., ?_⟩
      exact (agrees cached held).symm
    · exact ⟨cached, by rw [Function.update_of_ne same, held], rfl⟩
  | _ => exact ⟨cached, held, rfl⟩

end Steps

/-! Runs. -/

section Runs

/-- The assumption on files: those of a run with the same fingerprint have the same content. -/
def FingerprintsTell (files : String → PathEntry) (events : List IdentityEvent) : Prop :=
  ∀ first second : BinaryFile,
    ((∃ path, files path = .ok first) ∨ ∃ path, .replace path (.ok first) ∈ events) →
    ((∃ path, files path = .ok second) ∨ ∃ path, .replace path (.ok second) ∈ events) →
    first.fingerprint = second.fingerprint → first.content = second.content

/-- A call that is about to store a hash computed it from the content whose fingerprint it took. -/
def StoresOwnHash (state : IdentityState) : IdentityEvent → Prop
  | .advance position => ∀ call fingerprint hash, state.calls[position]? = some call →
      call.phase = .hashed fingerprint hash →
      (∀ existing, state.hashes call.path = some existing → existing.hash = hash) →
      ∀ file, .ok file ∈ call.seen → file.fingerprint = fingerprint → contentHash sha256 file.content = hash
  | _ => True

def VerifyPhase.taken : VerifyPhase → Option FileFingerprint
  | statted fingerprint => some fingerprint
  | missed fingerprint => some fingerprint
  | hashed fingerprint _ => some fingerprint
  | _ => none

def VerifyCall.SawHash (call : VerifyCall) (hash : String) : Prop :=
  ∃ file, .ok file ∈ call.seen ∧ contentHash sha256 file.content = hash

/-- The stored hash of a path, under any fingerprint. -/
def HashCache.Stores (hashes : HashCache) (path hash : String) : Prop :=
  ∃ cached, hashes path = some cached ∧ cached.hash = hash

structure VerifyCall.Sound (state : IdentityState) (call : VerifyCall) : Prop where
  current : call.phase.ended = false → state.files call.path ∈ call.seen
  taken : ∀ fingerprint, call.phase.taken = some fingerprint →
    ∃ file, .ok file ∈ call.seen ∧ file.fingerprint = fingerprint
  hashed : ∀ fingerprint hash, call.phase = .hashed fingerprint hash → call.SawHash sha256 hash
  result : ∀ hash, call.phase = .returned (.ok hash) →
    state.hashes.Stores call.path hash ∧ call.SawHash sha256 hash

structure IdentityState.Sound (known : BinaryFile → Prop) (state : IdentityState) : Prop where
  files : ∀ path file, state.files path = .ok file → known file
  seen : ∀ call ∈ state.calls, ∀ file, .ok file ∈ call.seen → known file
  pairs : ∀ path cached, state.hashes path = some cached → ∀ file, known file →
    file.fingerprint = cached.fingerprint → contentHash sha256 file.content = cached.hash
  calls : ∀ call ∈ state.calls, call.Sound sha256 state

variable {sha256} {state : IdentityState} {known : BinaryFile → Prop}

theorem sound_initial {files : String → PathEntry} (all : ∀ path file, files path = .ok file → known file) :
    (IdentityState.initial files).Sound sha256 known :=
  ⟨all, by simp [IdentityState.initial], by simp [IdentityState.initial], by simp [IdentityState.initial]⟩

theorem IdentityState.Sound.start (sound : state.Sound sha256 known) (path : String) :
    (state.step sha256 (.start path)).Sound sha256 known := by
  have begun : VerifyCall.Sound sha256 state ⟨path, .begun, [state.files path]⟩ :=
    ⟨fun _ => by simp, by simp [VerifyPhase.taken], by simp, by simp⟩
  constructor
  · exact sound.files
  · intro call member file saw
    rcases List.mem_append.mp member with earlier | new
    · exact sound.seen call earlier file saw
    · rw [List.mem_singleton.mp new] at saw
      exact sound.files path file (List.mem_singleton.mp saw).symm
  · exact sound.pairs
  · intro call member
    rcases List.mem_append.mp member with earlier | new
    · have old := sound.calls call earlier
      exact ⟨old.current, old.taken, old.hashed, old.result⟩
    · rw [List.mem_singleton.mp new]
      exact ⟨begun.current, begun.taken, begun.hashed, begun.result⟩

theorem VerifyCall.Sound.witness {call : VerifyCall} (sound : call.Sound sha256 state) (path : String)
    (entry : PathEntry) {calls : List VerifyCall} :
    (call.witness path entry).Sound sha256 ⟨Function.update state.files path entry, state.hashes, calls⟩ := by
  unfold VerifyCall.witness
  split
  · rename_i watched
    constructor
    · intro _
      simp [watched.1]
    · intro fingerprint taken
      obtain ⟨file, saw, same⟩ := sound.taken fingerprint taken
      exact ⟨file, List.mem_append_left _ saw, same⟩
    · intro fingerprint hash hashed
      obtain ⟨file, saw, same⟩ := sound.hashed fingerprint hash hashed
      exact ⟨file, List.mem_append_left _ saw, same⟩
    · intro hash returned
      simp only at returned
      simp [returned, VerifyPhase.ended] at watched
  · rename_i unwatched
    refine ⟨?_, sound.taken, sound.hashed, sound.result⟩
    intro running
    have other : call.path ≠ path := fun same => unwatched ⟨same, running⟩
    simp only [Function.update_of_ne other]
    exact sound.current running

theorem IdentityState.Sound.replace (sound : state.Sound sha256 known) (path : String) (entry : PathEntry)
    (fits : ∀ file, entry = .ok file → known file) :
    (state.step sha256 (.replace path entry)).Sound sha256 known := by
  constructor
  · intro other file found
    by_cases same : other = path
    · subst same
      simp only [IdentityState.step, Function.update_self] at found
      exact fits file found
    · simp only [IdentityState.step, Function.update_of_ne same] at found
      exact sound.files other file found
  · intro call member file saw
    obtain ⟨old, oldMember, rfl⟩ := List.mem_map.mp member
    unfold VerifyCall.witness at saw
    split at saw
    · rcases List.mem_append.mp saw with earlier | new
      · exact sound.seen old oldMember file earlier
      · exact fits file (List.mem_singleton.mp new).symm
    · exact sound.seen old oldMember file saw
  · exact sound.pairs
  · intro call member
    obtain ⟨old, oldMember, rfl⟩ := List.mem_map.mp member
    exact (sound.calls old oldMember).witness path entry

variable {call : VerifyCall} {later : VerifyPhase} {next : HashCache} {calls : List VerifyCall}

theorem VerifyCall.Sound.rehash (sound : call.Sound sha256 state)
    (keeps : ∀ path cached, state.hashes path = some cached → next.Stores path cached.hash) :
    call.Sound sha256 ⟨state.files, next, calls⟩ := by
  refine ⟨sound.current, sound.taken, sound.hashed, ?_⟩
  intro hash returned
  obtain ⟨⟨cached, held, rfl⟩, saw⟩ := sound.result hash returned
  exact ⟨keeps call.path cached held, saw⟩

theorem VerifyCall.Sound.advance (sound : call.Sound sha256 state)
    (pairs : ∀ cached, state.hashes call.path = some cached → ∀ file, .ok file ∈ call.seen →
      file.fingerprint = cached.fingerprint → contentHash sha256 file.content = cached.hash)
    (taken : VerifyStep sha256 call.path (state.files call.path) state.hashes call.phase later next) :
    VerifyCall.Sound sha256 ⟨state.files, next, calls⟩ { call with phase := later } := by
  obtain ⟨path, phase, seen⟩ := call
  cases taken with
  | statFails => exact ⟨by simp [VerifyPhase.ended], by simp [VerifyPhase.taken], by simp, by simp⟩
  | stat found =>
    rename_i file
    have member : .ok file ∈ seen := found ▸ sound.current rfl
    refine ⟨fun _ => sound.current rfl, ?_, by simp, by simp⟩
    intro fingerprint taken
    exact ⟨file, member, by simpa [VerifyPhase.taken] using taken⟩
  | hit held =>
    rename_i cached
    obtain ⟨file, member, same⟩ := sound.taken cached.fingerprint rfl
    refine ⟨by simp [VerifyPhase.ended], by simp [VerifyPhase.taken], by simp, ?_⟩
    intro hash returned
    have given : cached.hash = hash := by simpa using returned
    subst given
    exact ⟨⟨cached, held, rfl⟩, file, member, pairs cached held file member same⟩
  | miss => exact ⟨fun _ => sound.current rfl, sound.taken, by simp, by simp⟩
  | hashFails => exact ⟨by simp [VerifyPhase.ended], by simp [VerifyPhase.taken], by simp, by simp⟩
  | hash found =>
    rename_i fingerprint file
    have member : .ok file ∈ seen := found ▸ sound.current rfl
    refine ⟨fun _ => sound.current rfl, sound.taken, ?_, by simp⟩
    intro other hash hashed
    have given : contentHash sha256 file.content = hash := by
      simp only [VerifyPhase.hashed.injEq] at hashed
      exact hashed.2
    exact ⟨file, member, given⟩
  | refuse => exact ⟨by simp [VerifyPhase.ended], by simp [VerifyPhase.taken], by simp, by simp⟩
  | insert agrees =>
    rename_i fingerprint hash
    refine ⟨by simp [VerifyPhase.ended], by simp [VerifyPhase.taken], by simp, ?_⟩
    intro given returned
    have same : hash = given := by simpa using returned
    subst same
    exact ⟨⟨⟨hash, fingerprint⟩, by simp, rfl⟩, sound.hashed fingerprint hash rfl⟩
  | ended => exact ⟨sound.current, sound.taken, sound.hashed, sound.result⟩

/-- A pair of fingerprint and hash that is stored now was stored before, or it is the one a call has computed. -/
theorem VerifyStep.pair {path : String} {entry : PathEntry} {hashes : HashCache} {phase : VerifyPhase}
    (taken : VerifyStep sha256 path entry hashes phase later next) {other : String} {cached : CachedBinary}
    (held : next other = some cached) :
    hashes other = some cached ∨
      (other = path ∧ phase = .hashed cached.fingerprint cached.hash ∧
        ∀ existing, hashes path = some existing → existing.hash = cached.hash) := by
  cases taken with
  | insert agrees =>
    by_cases same : other = path
    · subst same
      rw [Function.update_self] at held
      cases held
      exact Or.inr ⟨rfl, rfl, agrees⟩
    · rw [Function.update_of_ne same] at held
      exact Or.inl held
  | _ => exact Or.inl held

theorem advance_idle {position : Nat} (idle : state.calls[position]? = none) :
    state.step sha256 (.advance position) = state := by
  simp [IdentityState.step, idle]

theorem advance_call (sha256 : List UInt8 → List UInt8) {position : Nat} (found : state.calls[position]? = some call) :
    ∃ later next, VerifyStep sha256 call.path (state.files call.path) state.hashes call.phase later next ∧
      state.step sha256 (.advance position) =
        ⟨state.files, next, state.calls.set position { call with phase := later }⟩ := by
  refine ⟨_, _, verifyStep sha256 call.path (state.files call.path) state.hashes call.phase, ?_⟩
  simp [IdentityState.step, found]

theorem IdentityState.Sound.advance (sound : state.Sound sha256 known)
    (tells : ∀ first second, known first → known second → first.fingerprint = second.fingerprint →
      first.content = second.content)
    (position : Nat) (own : StoresOwnHash sha256 state (.advance position)) :
    (state.step sha256 (.advance position)).Sound sha256 known := by
  cases found : state.calls[position]? with
  | none =>
    rw [advance_idle found]
    exact sound
  | some call =>
    have member : call ∈ state.calls := List.mem_of_getElem? found
    obtain ⟨later, next, taken, after⟩ := advance_call sha256 found
    rw [after]
    have pairs : ∀ cached, state.hashes call.path = some cached → ∀ file, .ok file ∈ call.seen →
        file.fingerprint = cached.fingerprint → contentHash sha256 file.content = cached.hash :=
      fun cached held file saw => sound.pairs call.path cached held file (sound.seen call member file saw)
    constructor
    · exact sound.files
    · intro other otherMember file saw
      rcases List.mem_or_eq_of_mem_set otherMember with earlier | rfl
      · exact sound.seen other earlier file saw
      · exact sound.seen call member file saw
    · intro path cached held file isKnown same
      rcases taken.pair held with earlier | ⟨_, hashed, agrees⟩
      · exact sound.pairs path cached earlier file isKnown same
      · -- The file that was looked at at the start has the same content as this one.
        obtain ⟨statted, saw, sameFile⟩ := (sound.calls call member).taken cached.fingerprint (by simp [hashed, VerifyPhase.taken])
        have content := tells file statted isKnown (sound.seen call member statted saw) (same.trans sameFile.symm)
        rw [content]
        exact own call cached.fingerprint cached.hash found hashed agrees statted saw sameFile
    · intro other otherMember
      rcases List.mem_or_eq_of_mem_set otherMember with earlier | rfl
      · exact (sound.calls other earlier).rehash fun path cached held => taken.keeps held
      · exact (sound.calls call member).advance pairs taken

/-- A stored hash never changes, whatever is replaced and however the calls overlap. -/
theorem stores_run {path hash : String} (held : state.hashes.Stores path hash) (events : List IdentityEvent) :
    (run (IdentityState.step sha256) state events).hashes.Stores path hash := by
  refine run_invariant (fun state : IdentityState => state.hashes.Stores path hash) ?_ held
  intro state event _ held
  cases event with
  | start other => exact held
  | replace other entry => exact held
  | advance position =>
    cases found : state.calls[position]? with
    | none =>
      rw [advance_idle found]
      exact held
    | some call =>
      obtain ⟨later, next, taken, after⟩ := advance_call sha256 found
      obtain ⟨cached, stored, rfl⟩ := held
      rw [after]
      exact taken.keeps stored

theorem sound_run {files : String → PathEntry} {events : List IdentityEvent} (tells : FingerprintsTell files events)
    (own : Along (IdentityState.step sha256) (StoresOwnHash sha256) (.initial files) events) :
    ∃ known, (run (IdentityState.step sha256) (.initial files) events).Sound sha256 known := by
  let known (file : BinaryFile) : Prop :=
    (∃ path, files path = .ok file) ∨ ∃ path, .replace path (.ok file) ∈ events
  -- Every replacement of the run brings a file that `known` holds of.
  have fits : ∀ (later : List IdentityEvent) (state : IdentityState), later ⊆ events → state.Sound sha256 known →
      Along (IdentityState.step sha256) (StoresOwnHash sha256) state later →
      (run (IdentityState.step sha256) state later).Sound sha256 known := by
    intro later
    induction later with
    | nil => exact fun _ _ sound _ => sound
    | cons event rest ih =>
      intro state part sound along
      have member : event ∈ events := part List.mem_cons_self
      have next : (state.step sha256 event).Sound sha256 known := by
        cases event with
        | start path => exact sound.start path
        | advance position => exact sound.advance tells position along.1
        | replace path entry =>
          apply sound.replace path entry
          intro file given
          exact Or.inr ⟨path, given ▸ member⟩
      exact ih _ (fun _ inside => part (List.mem_cons_of_mem _ inside)) next along.2
  exact ⟨known, fits events _ (List.Subset.refl _) (sound_initial fun path file found => Or.inl ⟨path, found⟩) own⟩

/-- Once a fingerprint is stored with the hash of other content, a file with that fingerprint is trusted under it. -/
theorem mismatched_pair_trusted {path : String} {cached : CachedBinary} (held : state.hashes path = some cached)
    {file : BinaryFile} (same : file.fingerprint = cached.fingerprint)
    (wrong : contentHash sha256 file.content ≠ cached.hash) :
    ∃ call ∈ (run (IdentityState.step sha256) state [.replace path (.ok file), .start path,
        .advance state.calls.length, .advance state.calls.length]).calls,
      call.path = path ∧ call.phase = .returned (.ok cached.hash) ∧ ¬ call.SawHash sha256 cached.hash := by
  refine ⟨⟨path, .returned (.ok cached.hash), [.ok file]⟩, ?_, rfl, rfl, ?_⟩
  · simp [run, IdentityState.step, verifyOrCache, held, same]
  · rintro ⟨other, saw, hash⟩
    have here : other = file := by simpa using saw
    exact wrong (here ▸ hash)

/-- Trust on first use: the hash stored for a path stays, and a call that succeeds returns it and has seen, while
it ran, a file with that hash at the path. -/
def TrustsFirstUse (sha256 : List UInt8 → List UInt8) (files : String → PathEntry) (events : List IdentityEvent) :
    Prop :=
  (∀ before after, events = before ++ after → ∀ path hash,
    (run (IdentityState.step sha256) (.initial files) before).hashes.Stores path hash →
      (run (IdentityState.step sha256) (.initial files) events).hashes.Stores path hash) ∧
  (∀ call ∈ (run (IdentityState.step sha256) (.initial files) events).calls, ∀ hash,
    call.phase = .returned (.ok hash) →
      (run (IdentityState.step sha256) (.initial files) events).hashes.Stores call.path hash ∧
        call.SawHash sha256 hash)

theorem trustsFirstUse_of_own_hashes (sha256 : List UInt8 → List UInt8) (files : String → PathEntry)
    (events : List IdentityEvent) (tells : FingerprintsTell files events)
    (own : Along (IdentityState.step sha256) (StoresOwnHash sha256) (.initial files) events) :
    TrustsFirstUse sha256 files events := by
  constructor
  · intro before after cut path hash held
    rw [cut, run_append]
    exact stores_run held after
  · obtain ⟨known, sound⟩ := sound_run tells own
    intro call member hash returned
    exact (sound.calls call member).result hash returned

end Runs

/-! A tool that is switched for another while it is checked. -/

section Switched

def toolFingerprint (inode : Nat) : FileFingerprint := ⟨1, 0, 0, 0, 0, 1, inode⟩

def goodTool : BinaryFile := ⟨toolFingerprint 1, [1], none⟩

def otherTool : BinaryFile := ⟨toolFingerprint 2, [2], none⟩

def toolPath : String := "/bin/tool"

def toolFiles (_ : String) : PathEntry := .ok goodTool

/-- The other tool stands at the path while the first call hashes it. -/
def switchedRun : List IdentityEvent :=
  [.start toolPath, .advance 0, .replace toolPath (.ok otherTool), .advance 0, .advance 0, .advance 0,
    .replace toolPath (.ok goodTool), .start toolPath, .advance 1, .advance 1]

theorem switched_tells : FingerprintsTell toolFiles switchedRun := by
  have either : ∀ file : BinaryFile,
      ((∃ path, toolFiles path = .ok file) ∨ ∃ path, .replace path (.ok file) ∈ switchedRun) →
        file = goodTool ∨ file = otherTool := by
    intro file occurs
    rcases occurs with ⟨path, found⟩ | ⟨path, member⟩
    · exact Or.inl (Except.ok.inj found).symm
    · simp [switchedRun] at member
      rcases member with ⟨_, rfl⟩ | ⟨_, rfl⟩
      · exact Or.inr rfl
      · exact Or.inl rfl
  intro first second one two same
  rcases either first one with rfl | rfl <;> rcases either second two with rfl | rfl
  · rfl
  · exact absurd same (by decide)
  · exact absurd same (by decide)
  · rfl

def trustedCall : VerifyCall := ⟨toolPath, .returned (.ok (contentHash id [2])), [.ok goodTool]⟩

theorem switched_tool_trusted :
    ¬ ∀ (sha256 : List UInt8 → List UInt8) (files : String → PathEntry) (events : List IdentityEvent),
      FingerprintsTell files events → TrustsFirstUse sha256 files events := by
  intro trusts
  have member : trustedCall ∈ (run (IdentityState.step id) (.initial toolFiles) switchedRun).calls := by
    decide +kernel
  obtain ⟨_, returned⟩ := trusts id toolFiles switchedRun switched_tells
  obtain ⟨_, file, saw, same⟩ := returned trustedCall member _ rfl
  have good : file = goodTool := by
    simpa [trustedCall] using saw
  subst good
  revert same
  decide +kernel

def steadyRun : List IdentityEvent :=
  [.start toolPath, .advance 0, .advance 0, .advance 0, .advance 0, .start toolPath, .advance 1, .advance 1]

def steadyCall (phase : VerifyPhase) : VerifyCall := ⟨toolPath, phase, [.ok goodTool]⟩

theorem steady_stores_own {state : IdentityState} {position : Nat} (phase : VerifyPhase)
    (found : state.calls[position]? = some (steadyCall phase))
    (own : ∀ fingerprint hash, phase = .hashed fingerprint hash → hash = contentHash id [1]) :
    StoresOwnHash id state (.advance position) := by
  intro call fingerprint hash isCall hashed _ file saw _
  rw [found] at isCall
  cases isCall
  have good : file = goodTool := by simpa [steadyCall] using saw
  rw [own fingerprint hash hashed, good]
  rfl

theorem steady_tool_trusted : TrustsFirstUse id toolFiles steadyRun := by
  apply trustsFirstUse_of_own_hashes
  · intro first second one two _
    simp only [toolFiles, steadyRun, Except.ok.injEq, List.mem_cons, reduceCtorEq, List.not_mem_nil, or_false,
      exists_const] at one two
    rw [← one, ← two]
  · refine ⟨True.intro, ?_, ?_, ?_, ?_, True.intro, ?_, ?_, True.intro⟩
    · exact steady_stores_own .begun (by decide +kernel) (by simp)
    · exact steady_stores_own (.statted (toolFingerprint 1)) (by decide +kernel) (by simp)
    · exact steady_stores_own (.missed (toolFingerprint 1)) (by decide +kernel) (by simp)
    · exact steady_stores_own (.hashed (toolFingerprint 1) (contentHash id [1])) (by decide +kernel) (by simp)
    · exact steady_stores_own .begun (by decide +kernel) (by simp)
    · exact steady_stores_own (.statted (toolFingerprint 1)) (by decide +kernel) (by simp)

end Switched

end OpenShell.Sandbox
