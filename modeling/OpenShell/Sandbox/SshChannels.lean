import Mathlib.Data.List.AList
import OpenShell.Lib.Text
import OpenShell.Lib.Utf8

namespace OpenShell.Sandbox.SshChannels

open Text

/-! The channels of an SSH connection into a sandbox, and the programs that they start. -/

abbrev ChannelId : Type := UInt32

structure PtyRequest where
  term : List Char
  colWidth : UInt32
  rowHeight : UInt32
  pixelWidth : UInt32
  pixelHeight : UInt32

structure Winsize where
  row : UInt16
  col : UInt16
  xpixel : UInt16
  ypixel : UInt16
deriving DecidableEq

def toU16 (value : UInt32) : UInt16 := UInt16.ofNat (min value.toNat (2 ^ 16 - 1))

def winsize (colWidth rowHeight pixelWidth pixelHeight : UInt32) : Winsize where
  row := toU16 (max rowHeight 1)
  col := toU16 (max colWidth 1)
  xpixel := toU16 pixelWidth
  ypixel := toU16 pixelHeight

def PtyRequest.winsize (pty : PtyRequest) : Winsize :=
  SshChannels.winsize pty.colWidth pty.rowHeight pty.pixelWidth pty.pixelHeight

/-- The sender to a program and its terminal are known by the number of the program. -/
structure ChannelState where
  inputSender : Option Nat := none
  ptyMaster : Option Nat := none
  ptyRequest : Option PtyRequest := none

/-- A program that has been started: what is sent to its input, and the sizes that its terminal is given. -/
structure Program where
  channel : ChannelId
  command : Option (List Char)
  pty : Option PtyRequest
  input : List (List UInt8) := []
  sizes : List Winsize := (pty.map PtyRequest.winsize).toList

structure SshHandler where
  channels : AList fun _ : ChannelId => ChannelState := ∅
  programs : List Program := []

/-- What the client asks for. Whether a program can be started is decided outside. -/
inductive Request where
  | openSession (channel : ChannelId)
  | close (channel : ChannelId)
  | pty (channel : ChannelId) (term : List Char) (colWidth rowHeight : UInt32)
  | windowChange (channel : ChannelId) (colWidth rowHeight pixelWidth pixelHeight : UInt32)
  | shell (channel : ChannelId) (spawned : Bool)
  | exec (channel : ChannelId) (data : List UInt8) (spawned : Bool)
  | subsystem (channel : ChannelId) (name : String) (spawned : Bool)
  | env (channel : ChannelId) (name value : String)
  | data (channel : ChannelId) (bytes : List UInt8)
  | eof (channel : ChannelId)

def commandOf (data : List UInt8) : List Char := trim (utf8DecodeLossy data)

namespace SshHandler

variable (handler : SshHandler)

def setChannel (channel : ChannelId) (state : ChannelState) : SshHandler :=
  { handler with channels := handler.channels.insert channel state }

def modifyProgram (index : Nat) (change : Program → Program) : SshHandler :=
  { handler with programs := handler.programs.modify index change }

/-- The request for a terminal is used up by the program that it is for. -/
def startShell (channel : ChannelId) (command : Option (List Char)) (spawned : Bool) : Option SshHandler := do
  let state ← handler.channels.lookup channel
  guard spawned
  let index := handler.programs.length
  let started : ChannelState :=
    match state.ptyRequest with
    | some _ => { inputSender := some index, ptyMaster := some index }
    | none => { inputSender := some index, ptyMaster := state.ptyMaster }
  return {
    channels := handler.channels.insert channel started
    programs := handler.programs ++ [{ channel, command, pty := state.ptyRequest }] }

/-- A subsystem has no terminal, and leaves a request for one to the next program. -/
def startSubsystem (channel : ChannelId) (command : List Char) (spawned : Bool) : Option SshHandler := do
  guard spawned
  let state ← handler.channels.lookup channel
  return {
    channels := handler.channels.insert channel { state with inputSender := some handler.programs.length }
    programs := handler.programs ++ [{ channel, command := some command, pty := none }] }

/-- A handler that fails ends the connection. -/
def step : Request → Option SshHandler
  | .openSession channel => some (handler.setChannel channel {})
  | .close channel => some { handler with channels := handler.channels.erase channel }
  | .pty channel term colWidth rowHeight =>
    (handler.channels.lookup channel).map fun state =>
      handler.setChannel channel { state with ptyRequest := some ⟨term, colWidth, rowHeight, 0, 0⟩ }
  | .windowChange channel colWidth rowHeight pixelWidth pixelHeight =>
    match (handler.channels.lookup channel).bind ChannelState.ptyMaster with
    | none => some handler
    | some index => some (handler.modifyProgram index fun program =>
        { program with sizes := program.sizes ++ [winsize colWidth rowHeight pixelWidth pixelHeight] })
  | .shell channel spawned => handler.startShell channel none spawned
  | .exec channel data spawned =>
    if commandOf data = [] then some handler else handler.startShell channel (some (commandOf data)) spawned
  | .subsystem channel name spawned =>
    if name = "sftp" then handler.startSubsystem channel "/usr/lib/openssh/sftp-server".toList spawned
    else some handler
  | .env _ _ _ => some handler
  | .data channel bytes =>
    match (handler.channels.lookup channel).bind ChannelState.inputSender with
    | none => some handler
    | some index => some (handler.modifyProgram index fun program => { program with input := program.input ++ [bytes] })
  | .eof channel =>
    match handler.channels.lookup channel with
    | none => some handler
    | some state => some (handler.setChannel channel { state with inputSender := none })

end SshHandler

/-! A program on its own. -/

/-- What the requests make of a program, when it is alone with them. -/
structure Life where
  fed : Bool
  attached : Bool
  pending : Bool
  input : List (List UInt8)
  sizes : List Winsize

def Life.start (pty : Option PtyRequest) : Life where
  fed := true
  attached := pty.isSome
  pending := false
  input := []
  sizes := (pty.map PtyRequest.winsize).toList

/-- Another program takes the input, and with a terminal of its own the changes of the window. -/
def Life.replaced (life : Life) : Life :=
  { life with fed := false, attached := life.attached && !life.pending, pending := false }

def Life.step (channel : ChannelId) (life : Life) : Request → Life
  | .openSession other | .close other =>
    if other = channel then { life with fed := false, attached := false } else life
  | .pty other _ _ _ => if other = channel then { life with pending := true } else life
  | .windowChange other colWidth rowHeight pixelWidth pixelHeight =>
    if other = channel ∧ life.attached then
      { life with sizes := life.sizes ++ [winsize colWidth rowHeight pixelWidth pixelHeight] }
    else life
  | .shell other _ => if other = channel then life.replaced else life
  | .exec other data _ => if other = channel ∧ commandOf data ≠ [] then life.replaced else life
  | .subsystem other name _ => if other = channel ∧ name = "sftp" then { life with fed := false } else life
  | .env _ _ _ => life
  | .data other bytes => if other = channel ∧ life.fed then { life with input := life.input ++ [bytes] } else life
  | .eof other => if other = channel then { life with fed := false } else life

def Life.run (channel : ChannelId) (pty : Option PtyRequest) (requests : List Request) : Life :=
  requests.foldl (Life.step channel) (Life.start pty)

/-- The request for a terminal that the next program of a channel finds. -/
def pendingStep (channel : ChannelId) (pending : Option PtyRequest) : Request → Option PtyRequest
  | .openSession other | .close other | .shell other _ => if other = channel then none else pending
  | .pty other term colWidth rowHeight => if other = channel then some ⟨term, colWidth, rowHeight, 0, 0⟩ else pending
  | .exec other data _ => if other = channel ∧ commandOf data ≠ [] then none else pending
  | .windowChange .. | .subsystem .. | .env .. | .data .. | .eof .. => pending

def pendingOf (channel : ChannelId) (requests : List Request) : Option PtyRequest :=
  requests.foldl (pendingStep channel) none

/-- The program that a request starts behind others. -/
def startedBy (before : List Request) : Request → Option (ChannelId × Option (List Char) × Option PtyRequest)
  | .shell channel _ => some (channel, none, pendingOf channel before)
  | .exec channel data _ =>
    if commandOf data = [] then none else some (channel, some (commandOf data), pendingOf channel before)
  | .subsystem channel name _ =>
    if name = "sftp" then some (channel, some "/usr/lib/openssh/sftp-server".toList, none) else none
  | _ => none

def starts (request : Request) : Bool := (startedBy [] request).isSome

def Request.channel : Request → ChannelId
  | .openSession channel | .close channel | .pty channel _ _ _ | .windowChange channel _ _ _ _ | .shell channel _
  | .exec channel _ _ | .subsystem channel _ _ | .env channel _ _ | .data channel _ | .eof channel => channel

section Invariant

variable {handler next : SshHandler} {request : Request} {program : Program} {life : Life} {index : Nat}

namespace SshHandler

def sender (handler : SshHandler) (channel : ChannelId) : Option Nat :=
  (handler.channels.lookup channel).bind ChannelState.inputSender

def master (handler : SshHandler) (channel : ChannelId) : Option Nat :=
  (handler.channels.lookup channel).bind ChannelState.ptyMaster

def waiting (handler : SshHandler) (channel : ChannelId) : Option PtyRequest :=
  (handler.channels.lookup channel).bind ChannelState.ptyRequest

end SshHandler

/-- Who holds a sender or a terminal holds that of a program of its own channel. -/
structure Owned (handler : SshHandler) : Prop where
  sender : ∀ channel index, handler.sender channel = some index →
    ∃ program, handler.programs[index]? = some program ∧ program.channel = channel
  master : ∀ channel index, handler.master channel = some index →
    ∃ program, handler.programs[index]? = some program ∧ program.channel = channel

/-- A program has got what it would have got alone. -/
structure Sync (handler : SshHandler) (index : Nat) (program : Program) (life : Life) : Prop where
  input : program.input = life.input
  sizes : program.sizes = life.sizes
  fed : handler.sender program.channel = some index ↔ life.fed = true
  attached : handler.master program.channel = some index ↔ life.attached = true
  pending : life.attached = true → life.pending = (handler.waiting program.channel).isSome

theorem Life.step_other {channel : ChannelId} (other : request.channel ≠ channel) :
    life.step channel request = life := by
  cases request <;> simp_all [Life.step, Request.channel]

theorem startShell_some {channel : ChannelId} {command : Option (List Char)} {spawned : Bool}
    (stepped : handler.startShell channel command spawned = some next) :
    ∃ state, handler.channels.lookup channel = some state ∧
      next.channels = handler.channels.insert channel
        { inputSender := some handler.programs.length,
          ptyMaster := if state.ptyRequest.isSome then some handler.programs.length else state.ptyMaster } ∧
      next.programs = handler.programs ++ [{ channel, command, pty := state.ptyRequest }] := by
  unfold SshHandler.startShell at stepped
  obtain ⟨state, found, rest⟩ := Option.bind_eq_some_iff.1 stepped
  obtain ⟨_, _, built⟩ := Option.bind_eq_some_iff.1 rest
  cases built
  refine ⟨state, found, ?_, rfl⟩
  cases state.ptyRequest <;> rfl

theorem startSubsystem_some {channel : ChannelId} {command : List Char} {spawned : Bool}
    (stepped : handler.startSubsystem channel command spawned = some next) :
    ∃ state, handler.channels.lookup channel = some state ∧
      next.channels = handler.channels.insert channel { state with inputSender := some handler.programs.length } ∧
      next.programs = handler.programs ++ [{ channel, command := some command, pty := none }] := by
  unfold SshHandler.startSubsystem at stepped
  obtain ⟨_, _, rest⟩ := Option.bind_eq_some_iff.1 stepped
  obtain ⟨state, found, built⟩ := Option.bind_eq_some_iff.1 rest
  cases built
  exact ⟨state, found, rfl, rfl⟩

/-- The other channels keep their states. -/
theorem step_lookup {other : ChannelId} (stepped : handler.step request = some next) (apart : other ≠ request.channel) :
    next.channels.lookup other = handler.channels.lookup other := by
  cases request with
  | openSession channel =>
    cases stepped
    exact AList.lookup_insert_ne apart
  | close channel =>
    cases stepped
    exact AList.lookup_erase_ne apart
  | pty channel term colWidth rowHeight =>
    obtain ⟨state, found, rfl⟩ := Option.map_eq_some_iff.1 stepped
    exact AList.lookup_insert_ne apart
  | windowChange channel colWidth rowHeight pixelWidth pixelHeight =>
    simp only [SshHandler.step] at stepped
    split at stepped <;> cases stepped <;> rfl
  | shell channel spawned =>
    obtain ⟨state, _, channels, _⟩ := startShell_some stepped
    rw [channels]
    exact AList.lookup_insert_ne apart
  | exec channel data spawned =>
    simp only [SshHandler.step] at stepped
    split at stepped
    · cases stepped
      rfl
    · obtain ⟨state, _, channels, _⟩ := startShell_some stepped
      rw [channels]
      exact AList.lookup_insert_ne apart
  | subsystem channel name spawned =>
    simp only [SshHandler.step] at stepped
    split at stepped
    · obtain ⟨state, _, channels, _⟩ := startSubsystem_some stepped
      rw [channels]
      exact AList.lookup_insert_ne apart
    · cases stepped
      rfl
  | env channel name value =>
    cases stepped
    rfl
  | data channel bytes =>
    simp only [SshHandler.step] at stepped
    split at stepped <;> cases stepped <;> rfl
  | eof channel =>
    simp only [SshHandler.step] at stepped
    split at stepped
    · cases stepped
      rfl
    · cases stepped
      exact AList.lookup_insert_ne apart

/-- A step changes at most one program, and that one is of its channel; and it may add one. -/
theorem step_programs (owned : Owned handler) (stepped : handler.step request = some next) :
    (∃ target change, (∀ program, handler.programs[target]? = some program → program.channel = request.channel) ∧
      next.programs = handler.programs.modify target change) ∨
    ∃ added, next.programs = handler.programs ++ [added] := by
  have same : next.programs = handler.programs → ∃ target change,
      (∀ program, handler.programs[target]? = some program → program.channel = request.channel) ∧
        next.programs = handler.programs.modify target change := by
    intro unchanged
    refine ⟨handler.programs.length, id, ?_, ?_⟩
    · intro program listed
      rw [List.getElem?_eq_none (Nat.le_refl _)] at listed
      cases listed
    · rw [unchanged, List.modify_id]
  cases request with
  | openSession channel =>
    cases stepped
    exact .inl (same rfl)
  | close channel =>
    cases stepped
    exact .inl (same rfl)
  | pty channel term colWidth rowHeight =>
    obtain ⟨state, found, rfl⟩ := Option.map_eq_some_iff.1 stepped
    exact .inl (same rfl)
  | windowChange channel colWidth rowHeight pixelWidth pixelHeight =>
    simp only [SshHandler.step] at stepped
    split at stepped
    · cases stepped
      exact .inl (same rfl)
    · rename_i target held
      cases stepped
      obtain ⟨program, listed, own⟩ := owned.master channel target held
      refine .inl ⟨target, _, ?_, rfl⟩
      intro found there
      rw [listed] at there
      cases there
      exact own
  | shell channel spawned =>
    obtain ⟨state, _, _, programs⟩ := startShell_some stepped
    exact .inr ⟨_, programs⟩
  | exec channel data spawned =>
    simp only [SshHandler.step] at stepped
    split at stepped
    · cases stepped
      exact .inl (same rfl)
    · obtain ⟨state, _, _, programs⟩ := startShell_some stepped
      exact .inr ⟨_, programs⟩
  | subsystem channel name spawned =>
    simp only [SshHandler.step] at stepped
    split at stepped
    · obtain ⟨state, _, _, programs⟩ := startSubsystem_some stepped
      exact .inr ⟨_, programs⟩
    · cases stepped
      exact .inl (same rfl)
  | env channel name value =>
    cases stepped
    exact .inl (same rfl)
  | data channel bytes =>
    simp only [SshHandler.step] at stepped
    split at stepped
    · cases stepped
      exact .inl (same rfl)
    · rename_i target held
      cases stepped
      obtain ⟨program, listed, own⟩ := owned.sender channel target held
      refine .inl ⟨target, _, ?_, rfl⟩
      intro found there
      rw [listed] at there
      cases there
      exact own
  | eof channel =>
    simp only [SshHandler.step] at stepped
    split at stepped <;> cases stepped <;> exact .inl (same rfl)

@[simp] theorem sender_setChannel {channel : ChannelId} {state : ChannelState} :
    (handler.setChannel channel state).sender channel = state.inputSender := by
  simp [SshHandler.sender, SshHandler.setChannel]

@[simp] theorem master_setChannel {channel : ChannelId} {state : ChannelState} :
    (handler.setChannel channel state).master channel = state.ptyMaster := by
  simp [SshHandler.master, SshHandler.setChannel]

@[simp] theorem waiting_setChannel {channel : ChannelId} {state : ChannelState} :
    (handler.setChannel channel state).waiting channel = state.ptyRequest := by
  simp [SshHandler.waiting, SshHandler.setChannel]

theorem modifyProgram_same {change : Program → Program} (listed : handler.programs[index]? = some program) :
    (handler.modifyProgram index change).programs[index]? = some (change program) := by
  rw [SshHandler.modifyProgram, List.getElem?_modify_eq, listed]
  rfl

theorem modifyProgram_other {target : Nat} {change : Program → Program} (apart : target ≠ index)
    (listed : handler.programs[index]? = some program) :
    (handler.modifyProgram target change).programs[index]? = some program := by
  exact (List.getElem?_modify_ne change handler.programs apart).trans listed

/-- What is asked of a program's own channel does to it what it would do to it alone. -/
def Carried (next : SshHandler) (index : Nat) (program : Program) (life : Life) : Prop :=
  ∃ later, next.programs[index]? = some later ∧
    (later.channel, later.command, later.pty) = (program.channel, program.command, program.pty) ∧
    Sync next index later life

theorem carried_elsewhere (owned : Owned handler) (stepped : handler.step request = some next)
    (listed : handler.programs[index]? = some program) (sync : Sync handler index program life)
    (other : request.channel ≠ program.channel) : Carried next index program (life.step program.channel request) := by
  have kept : next.programs[index]? = some program := by
    rcases step_programs owned stepped with ⟨target, change, own, programs⟩ | ⟨added, programs⟩
    · have apart : target ≠ index := by
        rintro rfl
        exact other (own program listed).symm
      rw [programs]
      exact modifyProgram_other apart listed
    · rw [programs, List.getElem?_append_left (List.getElem?_eq_some_iff.1 listed).1]
      exact listed
  have same := step_lookup stepped (Ne.symm other)
  have alone : life.step program.channel request = life := Life.step_other other
  refine ⟨program, kept, rfl, ?_⟩
  rw [alone]
  refine ⟨sync.input, sync.sizes, ?_, ?_, ?_⟩
  · rw [SshHandler.sender, same]
    exact sync.fed
  · rw [SshHandler.master, same]
    exact sync.attached
  · rw [SshHandler.waiting, same]
    exact sync.pending

theorem carried_replaced {command : Option (List Char)} {spawned : Bool}
    (stepped : handler.startShell program.channel command spawned = some next)
    (listed : handler.programs[index]? = some program) (sync : Sync handler index program life) :
    Carried next index program life.replaced := by
  obtain ⟨state, found, channels, programs⟩ := startShell_some stepped
  have inside : index < handler.programs.length := (List.getElem?_eq_some_iff.1 listed).1
  have attached := sync.attached
  have pending := sync.pending
  rw [SshHandler.master, found, Option.bind_some] at attached
  rw [SshHandler.waiting, found, Option.bind_some] at pending
  refine ⟨program, ?_, rfl, sync.input, sync.sizes, ?_, ?_, ?_⟩
  · rw [programs, List.getElem?_append_left inside]
    exact listed
  · rw [SshHandler.sender, channels, AList.lookup_insert]
    refine iff_of_false ?_ nofun
    intro same
    exact absurd (Option.some.inj same) inside.ne'
  · rw [SshHandler.master, channels, AList.lookup_insert, Option.bind_some, Life.replaced, Bool.and_eq_true]
    cases asked : state.ptyRequest with
    | some request =>
      refine iff_of_false ?_ ?_
      · intro same
        exact absurd (Option.some.inj same) inside.ne'
      · rintro ⟨on, none⟩
        rw [pending on, asked] at none
        cases none
    | none =>
      rw [Option.isSome_none, if_neg Bool.false_ne_true, attached]
      constructor
      · intro on
        refine ⟨on, ?_⟩
        rw [pending on, asked]
        rfl
      · exact And.left
  · intro _
    rw [SshHandler.waiting, channels, AList.lookup_insert]
    rfl

theorem carried_own (stepped : handler.step request = some next)
    (listed : handler.programs[index]? = some program) (sync : Sync handler index program life)
    (own : request.channel = program.channel) : Carried next index program (life.step program.channel request) := by
  cases request with
  | openSession channel =>
    cases own
    cases stepped
    refine ⟨program, listed, rfl, ?_⟩
    rw [Life.step, if_pos rfl]
    exact ⟨sync.input, sync.sizes, by simp, by simp, nofun⟩
  | close channel =>
    cases own
    cases stepped
    refine ⟨program, listed, rfl, ?_⟩
    rw [Life.step, if_pos rfl]
    exact ⟨sync.input, sync.sizes, by simp [SshHandler.sender], by simp [SshHandler.master], nofun⟩
  | pty channel term colWidth rowHeight =>
    cases own
    obtain ⟨state, found, rfl⟩ := Option.map_eq_some_iff.1 stepped
    refine ⟨program, listed, rfl, ?_⟩
    rw [Life.step, if_pos rfl]
    refine ⟨sync.input, sync.sizes, ?_, ?_, ?_⟩
    · rw [sender_setChannel]
      have fed := sync.fed
      rw [SshHandler.sender, found] at fed
      exact fed
    · rw [master_setChannel]
      have attached := sync.attached
      rw [SshHandler.master, found] at attached
      exact attached
    · intro _
      rw [waiting_setChannel]
      rfl
  | windowChange channel colWidth rowHeight pixelWidth pixelHeight =>
    cases own
    simp only [SshHandler.step] at stepped
    have attached := sync.attached
    split at stepped
    · rename_i none
      cases stepped
      have off : life.attached = false := by
        rw [SshHandler.master, none] at attached
        exact Bool.eq_false_iff.2 fun on => nomatch attached.2 on
      refine ⟨program, listed, rfl, ?_⟩
      rw [Life.step, off, if_neg (by simp)]
      exact sync
    · rename_i target held
      cases stepped
      rw [SshHandler.master, held] at attached
      by_cases same : target = index
      · subst same
        have on : life.attached = true := attached.1 rfl
        refine ⟨_, modifyProgram_same listed, rfl, ?_⟩
        rw [Life.step, if_pos ⟨rfl, on⟩]
        exact ⟨sync.input, congrArg (fun sizes => sizes ++ [_]) sync.sizes, sync.fed, sync.attached, sync.pending⟩
      · have off : life.attached = false := Bool.eq_false_iff.2 fun on => same (Option.some.inj (attached.2 on))
        refine ⟨program, modifyProgram_other same listed, rfl, ?_⟩
        rw [Life.step, off, if_neg (by simp)]
        exact ⟨sync.input, sync.sizes, sync.fed, sync.attached, sync.pending⟩
  | shell channel spawned =>
    cases own
    rw [Life.step, if_pos rfl]
    exact carried_replaced stepped listed sync
  | exec channel data spawned =>
    cases own
    simp only [SshHandler.step] at stepped
    split at stepped
    · rename_i empty
      cases stepped
      refine ⟨program, listed, rfl, ?_⟩
      rw [Life.step, if_neg fun both => both.2 empty]
      exact sync
    · rename_i filled
      rw [Life.step, if_pos ⟨rfl, filled⟩]
      exact carried_replaced stepped listed sync
  | subsystem channel name spawned =>
    cases own
    simp only [SshHandler.step] at stepped
    split at stepped
    · rename_i sftp
      obtain ⟨state, found, channels, programs⟩ := startSubsystem_some stepped
      have inside : index < handler.programs.length := (List.getElem?_eq_some_iff.1 listed).1
      have attached := sync.attached
      have pending := sync.pending
      rw [SshHandler.master, found] at attached
      rw [SshHandler.waiting, found] at pending
      rw [Life.step, if_pos ⟨rfl, sftp⟩]
      refine ⟨program, ?_, rfl, sync.input, sync.sizes, ?_, ?_, ?_⟩
      · rw [programs, List.getElem?_append_left inside]
        exact listed
      · rw [SshHandler.sender, channels, AList.lookup_insert]
        refine iff_of_false ?_ nofun
        intro same
        exact absurd (Option.some.inj same) inside.ne'
      · rw [SshHandler.master, channels, AList.lookup_insert]
        exact attached
      · rw [SshHandler.waiting, channels, AList.lookup_insert]
        exact pending
    · rename_i unknown
      cases stepped
      refine ⟨program, listed, rfl, ?_⟩
      rw [Life.step, if_neg fun both => unknown both.2]
      exact sync
  | env channel name value =>
    cases stepped
    exact ⟨program, listed, rfl, sync⟩
  | data channel bytes =>
    cases own
    simp only [SshHandler.step] at stepped
    have fed := sync.fed
    split at stepped
    · rename_i none
      cases stepped
      have off : life.fed = false := by
        rw [SshHandler.sender, none] at fed
        exact Bool.eq_false_iff.2 fun on => nomatch fed.2 on
      refine ⟨program, listed, rfl, ?_⟩
      rw [Life.step, off, if_neg (by simp)]
      exact sync
    · rename_i target held
      cases stepped
      rw [SshHandler.sender, held] at fed
      by_cases same : target = index
      · subst same
        have on : life.fed = true := fed.1 rfl
        refine ⟨_, modifyProgram_same listed, rfl, ?_⟩
        rw [Life.step, if_pos ⟨rfl, on⟩]
        exact ⟨congrArg (fun input => input ++ [bytes]) sync.input, sync.sizes, sync.fed, sync.attached, sync.pending⟩
      · have off : life.fed = false := Bool.eq_false_iff.2 fun on => same (Option.some.inj (fed.2 on))
        refine ⟨program, modifyProgram_other same listed, rfl, ?_⟩
        rw [Life.step, off, if_neg (by simp)]
        exact ⟨sync.input, sync.sizes, sync.fed, sync.attached, sync.pending⟩
  | eof channel =>
    cases own
    simp only [SshHandler.step] at stepped
    rw [Life.step, if_pos rfl]
    split at stepped
    · rename_i missing
      cases stepped
      refine ⟨program, listed, rfl, sync.input, sync.sizes, ?_, sync.attached, sync.pending⟩
      rw [SshHandler.sender, missing]
      exact iff_of_false nofun nofun
    · rename_i state found
      cases stepped
      have attached := sync.attached
      have pending := sync.pending
      rw [SshHandler.master, found] at attached
      rw [SshHandler.waiting, found] at pending
      refine ⟨program, listed, rfl, sync.input, sync.sizes, ?_, ?_, ?_⟩
      · rw [sender_setChannel]
        exact iff_of_false nofun nofun
      · rw [master_setChannel]
        exact attached
      · rw [waiting_setChannel]
        exact pending

end Invariant

/-! Whole connections. -/

/-- The requests that the handlers have served one after another. -/
def served (requests : List Request) : Option SshHandler := requests.foldlM SshHandler.step {}

/-- Which request has started a program, and what the later ones have made of it. -/
def Accounted (requests : List Request) (handler : SshHandler) (index : Nat) (program : Program) : Prop :=
  ∃ before start after, requests = before ++ start :: after ∧ before.countP starts = index ∧
    startedBy before start = some (program.channel, program.command, program.pty) ∧
    Sync handler index program (Life.run program.channel program.pty after)

structure Kept (requests : List Request) (handler : SshHandler) : Prop where
  count : handler.programs.length = requests.countP starts
  waiting : ∀ channel, handler.waiting channel = pendingOf channel requests
  owned : Owned handler
  programs : ∀ index program, handler.programs[index]? = some program → Accounted requests handler index program

section Runs

variable {handler next : SshHandler} {request : Request} {requests : List Request}

theorem starts_iff (before : List Request) : starts request = (startedBy before request).isSome := by
  cases request with
  | exec channel data spawned =>
    simp only [starts, startedBy]
    split <;> rfl
  | openSession | close | pty | windowChange | shell | subsystem | env | data | eof => rfl

theorem pendingOf_snoc (channel : ChannelId) :
    pendingOf channel (requests ++ [request]) = pendingStep channel (pendingOf channel requests) request :=
  List.foldl_concat ..

theorem pendingStep_other {channel : ChannelId} {pending : Option PtyRequest} (other : request.channel ≠ channel) :
    pendingStep channel pending request = pending := by
  cases request <;> simp_all [pendingStep, Request.channel]

theorem waiting_step (stepped : handler.step request = some next) (channel : ChannelId) :
    next.waiting channel = pendingStep channel (handler.waiting channel) request := by
  by_cases own : request.channel = channel
  · subst own
    cases request with
    | openSession channel =>
      cases stepped
      simp [pendingStep, Request.channel]
    | close channel =>
      cases stepped
      simp [pendingStep, Request.channel, SshHandler.waiting]
    | pty channel term colWidth rowHeight =>
      obtain ⟨state, _, rfl⟩ := Option.map_eq_some_iff.1 stepped
      simp [pendingStep, Request.channel]
    | windowChange channel colWidth rowHeight pixelWidth pixelHeight =>
      simp only [SshHandler.step] at stepped
      split at stepped <;> cases stepped <;> rfl
    | shell channel spawned =>
      obtain ⟨state, _, channels, _⟩ := startShell_some stepped
      simp [pendingStep, Request.channel, SshHandler.waiting, channels]
    | exec channel data spawned =>
      simp only [SshHandler.step] at stepped
      split at stepped
      · rename_i empty
        cases stepped
        simp [pendingStep, empty]
      · rename_i filled
        obtain ⟨state, _, channels, _⟩ := startShell_some stepped
        simp [pendingStep, Request.channel, SshHandler.waiting, channels, filled]
    | subsystem channel name spawned =>
      simp only [SshHandler.step] at stepped
      split at stepped
      · obtain ⟨state, found, channels, _⟩ := startSubsystem_some stepped
        simp [pendingStep, Request.channel, SshHandler.waiting, channels, found]
      · cases stepped
        rfl
    | env channel name value =>
      cases stepped
      rfl
    | data channel bytes =>
      simp only [SshHandler.step] at stepped
      split at stepped <;> cases stepped <;> rfl
    | eof channel =>
      simp only [SshHandler.step] at stepped
      split at stepped
      · cases stepped
        rfl
      · rename_i state found
        cases stepped
        simp [pendingStep, Request.channel, SshHandler.waiting, SshHandler.setChannel, found]
  · rw [SshHandler.waiting, step_lookup stepped (Ne.symm own), pendingStep_other own]
    rfl

/-- What a handler holds for a channel after a step: what it held, nothing, or the program that the step has started. -/
inductive Handed (handler next : SshHandler) (request : Request) (channel : ChannelId) :
    Option Nat → Option Nat → Prop where
  | kept (held : Option Nat) : Handed handler next request channel held held
  | dropped (held : Option Nat) : Handed handler next request channel held none
  | started (held : Option Nat) (own : request.channel = channel) (added : Program) (belongs : added.channel = channel)
      (programs : next.programs = handler.programs ++ [added]) :
      Handed handler next request channel held (some handler.programs.length)

theorem handed_startShell {channel : ChannelId} {command : Option (List Char)} {spawned : Bool}
    (stepped : handler.startShell channel command spawned = some next) (own : request.channel = channel) :
    Handed handler next request channel (handler.sender channel) (next.sender channel) ∧
      Handed handler next request channel (handler.master channel) (next.master channel) := by
  obtain ⟨state, found, channels, programs⟩ := startShell_some stepped
  rw [SshHandler.sender, SshHandler.master, SshHandler.sender, SshHandler.master, channels, AList.lookup_insert, found]
  refine ⟨.started _ own _ rfl programs, ?_⟩
  simp only [Option.bind_some]
  split
  · exact .started _ own _ rfl programs
  · exact .kept _

theorem handed_step (stepped : handler.step request = some next) (channel : ChannelId) :
    Handed handler next request channel (handler.sender channel) (next.sender channel) ∧
      Handed handler next request channel (handler.master channel) (next.master channel) := by
  by_cases own : request.channel = channel
  · subst own
    cases request with
    | openSession channel =>
      cases stepped
      simp only [Request.channel, sender_setChannel, master_setChannel]
      exact ⟨.dropped _, .dropped _⟩
    | close channel =>
      cases stepped
      simp only [Request.channel, SshHandler.sender, SshHandler.master, AList.lookup_erase, Option.bind_none]
      exact ⟨.dropped _, .dropped _⟩
    | pty channel term colWidth rowHeight =>
      obtain ⟨state, found, rfl⟩ := Option.map_eq_some_iff.1 stepped
      dsimp only [Request.channel]
      rw [sender_setChannel, master_setChannel, SshHandler.sender, SshHandler.master, found]
      exact ⟨.kept _, .kept _⟩
    | windowChange channel colWidth rowHeight pixelWidth pixelHeight =>
      simp only [SshHandler.step] at stepped
      split at stepped <;> cases stepped <;> exact ⟨.kept _, .kept _⟩
    | shell channel spawned => exact handed_startShell stepped rfl
    | exec channel data spawned =>
      simp only [SshHandler.step] at stepped
      split at stepped
      · cases stepped
        exact ⟨.kept _, .kept _⟩
      · exact handed_startShell stepped rfl
    | subsystem channel name spawned =>
      simp only [SshHandler.step] at stepped
      split at stepped
      · obtain ⟨state, found, channels, programs⟩ := startSubsystem_some stepped
        simp only [Request.channel, SshHandler.sender, SshHandler.master, channels, AList.lookup_insert, found,
          Option.bind_some]
        exact ⟨.started _ rfl _ rfl programs, .kept _⟩
      · cases stepped
        exact ⟨.kept _, .kept _⟩
    | env channel name value =>
      cases stepped
      exact ⟨.kept _, .kept _⟩
    | data channel bytes =>
      simp only [SshHandler.step] at stepped
      split at stepped <;> cases stepped <;> exact ⟨.kept _, .kept _⟩
    | eof channel =>
      simp only [SshHandler.step] at stepped
      split at stepped
      · cases stepped
        exact ⟨.kept _, .kept _⟩
      · rename_i state found
        cases stepped
        dsimp only [Request.channel]
        rw [sender_setChannel, master_setChannel, SshHandler.master, found]
        exact ⟨.dropped _, .kept _⟩
  · have same := step_lookup stepped (Ne.symm own)
    rw [SshHandler.sender, SshHandler.sender, SshHandler.master, SshHandler.master, same]
    exact ⟨.kept _, .kept _⟩

/-- A program that has just been started is as if it were alone. -/
theorem step_started (owned : Owned handler) (stepped : handler.step request = some next)
    (waiting : ∀ channel, handler.waiting channel = pendingOf channel requests) :
    match startedBy requests request with
    | none => next.programs.length = handler.programs.length
    | some about => ∃ added, next.programs = handler.programs ++ [added] ∧
        about = (added.channel, added.command, added.pty) ∧
        Sync next handler.programs.length added (Life.start added.pty) := by
  have unowned : ∀ channel, handler.master channel ≠ some handler.programs.length := by
    intro channel held
    obtain ⟨program, listed, _⟩ := owned.master channel _ held
    exact absurd (List.getElem?_eq_some_iff.1 listed).1 (Nat.lt_irrefl _)
  have ofShell : ∀ {channel command spawned}, handler.startShell channel command spawned = some next →
      ∃ added, next.programs = handler.programs ++ [added] ∧
        (channel, command, pendingOf channel requests) = (added.channel, added.command, added.pty) ∧
        Sync next handler.programs.length added (Life.start added.pty) := by
    intro channel command spawned began
    obtain ⟨state, found, channels, programs⟩ := startShell_some began
    have asked : pendingOf channel requests = state.ptyRequest := by
      rw [← waiting, SshHandler.waiting, found, Option.bind_some]
    have free := unowned channel
    rw [SshHandler.master, found, Option.bind_some] at free
    refine ⟨_, programs, by rw [asked], rfl, rfl, ?_, ?_, ?_⟩
    · rw [SshHandler.sender, channels, AList.lookup_insert]
      exact iff_of_true rfl rfl
    · rw [SshHandler.master, channels, AList.lookup_insert, Option.bind_some, Life.start]
      cases state.ptyRequest with
      | none => exact iff_of_false free nofun
      | some request => exact iff_of_true rfl rfl
    · intro _
      rw [SshHandler.waiting, channels, AList.lookup_insert]
      rfl
  cases request with
  | shell channel spawned => exact ofShell stepped
  | exec channel data spawned =>
    simp only [SshHandler.step] at stepped
    simp only [startedBy]
    split at stepped
    · rename_i empty
      cases stepped
      rw [if_pos empty]
    · rename_i filled
      rw [if_neg filled]
      exact ofShell stepped
  | subsystem channel name spawned =>
    simp only [SshHandler.step] at stepped
    simp only [startedBy]
    split at stepped
    · rename_i sftp
      rw [if_pos sftp]
      obtain ⟨state, found, channels, programs⟩ := startSubsystem_some stepped
      have free := unowned channel
      rw [SshHandler.master, found, Option.bind_some] at free
      refine ⟨_, programs, rfl, rfl, rfl, ?_, ?_, nofun⟩
      · rw [SshHandler.sender, channels, AList.lookup_insert]
        exact iff_of_true rfl rfl
      · rw [SshHandler.master, channels, AList.lookup_insert]
        exact iff_of_false free nofun
    · rename_i unknown
      rw [if_neg unknown]
      cases stepped
      rfl
  | openSession channel =>
    cases stepped
    rfl
  | close channel =>
    cases stepped
    rfl
  | pty channel term colWidth rowHeight =>
    obtain ⟨state, _, rfl⟩ := Option.map_eq_some_iff.1 stepped
    rfl
  | windowChange channel colWidth rowHeight pixelWidth pixelHeight =>
    simp only [SshHandler.step] at stepped
    split at stepped <;> cases stepped <;> simp [startedBy, SshHandler.modifyProgram]
  | env channel name value =>
    cases stepped
    rfl
  | data channel bytes =>
    simp only [SshHandler.step] at stepped
    split at stepped <;> cases stepped <;> simp [startedBy, SshHandler.modifyProgram]
  | eof channel =>
    simp only [SshHandler.step] at stepped
    split at stepped <;> cases stepped <;> rfl

theorem Accounted.carry {index : Nat} {program : Program} (accounted : Accounted requests handler index program)
    (owned : Owned handler) (listed : handler.programs[index]? = some program)
    (stepped : handler.step request = some next) :
    ∃ later, next.programs[index]? = some later ∧ later.channel = program.channel ∧
      Accounted (requests ++ [request]) next index later := by
  obtain ⟨before, start, after, whole, counted, started, sync⟩ := accounted
  have carried : Carried next index program
      ((Life.run program.channel program.pty after).step program.channel request) := by
    by_cases own : request.channel = program.channel
    · exact carried_own stepped listed sync own
    · exact carried_elsewhere owned stepped listed sync own
  obtain ⟨later, there, same, sync⟩ := carried
  obtain ⟨channel, command, pty⟩ : later.channel = program.channel ∧ later.command = program.command ∧
      later.pty = program.pty := by simpa using same
  refine ⟨later, there, channel, before, start, after ++ [request], ?_, counted, ?_, ?_⟩
  · rw [whole, List.append_assoc, List.cons_append]
  · rw [started, same]
  · rw [Life.run, List.foldl_concat, channel, pty]
    exact sync

theorem Kept.step (kept : Kept requests handler) (stepped : handler.step request = some next) :
    Kept (requests ++ [request]) next := by
  have carry : ∀ index program, handler.programs[index]? = some program → ∃ later,
      next.programs[index]? = some later ∧ later.channel = program.channel ∧
        Accounted (requests ++ [request]) next index later := by
    intro index program listed
    exact (kept.programs index program listed).carry kept.owned listed stepped
  have owner : ∀ {channel held index}, (held = some index → ∃ program, handler.programs[index]? = some program ∧
      program.channel = channel) → ∀ {now}, Handed handler next request channel held now → now = some index →
      ∃ program, next.programs[index]? = some program ∧ program.channel = channel := by
    intro channel held index before now handed same
    cases handed with
    | kept =>
      obtain ⟨program, listed, own⟩ := before same
      obtain ⟨later, there, alike, _⟩ := carry index program listed
      exact ⟨later, there, alike.trans own⟩
    | dropped => cases same
    | started own added belongs programs =>
      cases same
      exact ⟨added, by rw [programs, List.getElem?_concat_length], belongs⟩
  have started := step_started kept.owned stepped kept.waiting
  refine ⟨?_, ?_, ⟨?_, ?_⟩, ?_⟩
  · rw [List.countP_append, ← kept.count, List.countP_singleton, starts_iff requests]
    cases about : startedBy requests request with
    | none =>
      rw [about] at started
      exact started
    | some about =>
      simp only [about] at started
      obtain ⟨added, programs, _⟩ := started
      rw [programs, List.length_append]
      rfl
  · intro channel
    rw [waiting_step stepped, kept.waiting, pendingOf_snoc]
  · intro channel index held
    exact owner (kept.owned.sender channel index) (handed_step stepped channel).1 held
  · intro channel index held
    exact owner (kept.owned.master channel index) (handed_step stepped channel).2 held
  · intro index program listed
    by_cases old : index < handler.programs.length
    · obtain ⟨later, there, _, accounted⟩ := carry index _ (List.getElem?_eq_getElem old)
      rw [listed] at there
      cases there
      exact accounted
    · have inside := (List.getElem?_eq_some_iff.1 listed).1
      cases about : startedBy requests request with
      | none =>
        simp only [about] at started
        omega
      | some about' =>
        simp only [about] at started
        obtain ⟨added, programs, rfl, sync⟩ := started
        have last : index = handler.programs.length := by
          rw [programs, List.length_append, List.length_singleton] at inside
          omega
        subst last
        rw [programs, List.getElem?_concat_length] at listed
        cases listed
        exact ⟨requests, request, [], rfl, kept.count.symm, about, sync⟩

theorem kept_served (requests : List Request) : ∀ handler, served requests = some handler → Kept requests handler := by
  induction requests using List.reverseRecOn with
  | nil =>
    intro handler done
    cases done
    exact ⟨rfl, fun _ => rfl, ⟨nofun, nofun⟩, nofun⟩
  | append_singleton requests request ih =>
    intro handler done
    rw [served, List.foldlM_append] at done
    obtain ⟨before, reached, last⟩ := Option.bind_eq_some_iff.1 done
    rw [List.foldlM_cons] at last
    obtain ⟨next, stepped, same⟩ := Option.bind_eq_some_iff.1 last
    cases same
    exact (ih before reached).step stepped

/-- However the requests of the channels are mixed, each program gets the data and the window changes of its own
channel, in their order, from its start until its input is ended or another program takes it. -/
theorem programs_exact {requests : List Request} {handler : SshHandler} (done : served requests = some handler) :
    handler.programs.length = requests.countP starts ∧
      ∀ index program, handler.programs[index]? = some program → Accounted requests handler index program :=
  ⟨(kept_served requests handler done).count, (kept_served requests handler done).programs⟩

end Runs

section Example

/-- A shell with a terminal, and beside it a program that is fed through a pipe. -/
def mixed : List Request :=
  [.openSession 0, .openSession 1, .pty 0 "xterm".toList 80 24, .shell 0 true, .exec 1 [0x63, 0x61, 0x74] true,
    .data 0 [0x6c, 0x73], .data 1 [0x61], .windowChange 0 120 40 0 0, .eof 1, .data 1 [0x62], .data 0 [0x0a]]

theorem mixed_apart : ∃ handler, served mixed = some handler ∧
    handler.programs.map Program.input = [[[0x6c, 0x73], [0x0a]], [[0x61]]] ∧
    handler.programs.length = mixed.countP starts ∧
    ∀ index program, handler.programs[index]? = some program → Accounted mixed handler index program :=
  ⟨_, rfl, rfl, programs_exact rfl⟩

end Example

end OpenShell.Sandbox.SshChannels
