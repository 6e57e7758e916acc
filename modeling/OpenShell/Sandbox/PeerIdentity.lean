import OpenShell.Lib.IpAddr

namespace OpenShell.Sandbox

open Text Net

/-! Which process made a connection to the proxy: the socket tables and the open files of processes. -/

/-- What the scans read under `/proc`. A table or a directory that cannot be read is `none`; `descendants` is the
list the walk over the children of the entry point gives. -/
structure ProcFs where
  netTcp : Option (List Char)
  netTcp6 : Option (List Char)
  descendants : List Nat
  pids : Option (List Nat)
  fdLinks : Nat → Option (List String)
  exe : Nat → Except String String

abbrev TcpRow := List (List Char)

namespace TcpRow

def localAddress (row : TcpRow) : List Char := row.getD 1 []

def remoteAddress (row : TcpRow) : List Char := row.getD 2 []

def state (row : TcpRow) : List Char := row.getD 3 []

def inodeField (row : TcpRow) : List Char := row.getD 9 []

def inode (row : TcpRow) : Option Nat := parseUnsigned 10 (2 ^ 64) row.inodeField

/-- The port the scan reads; a port that is no number of 16 bits counts as 0. -/
def localPort (row : TcpRow) : Option Nat :=
  (rsplitOnce ':' row.localAddress).map fun (_, portHex) => (parseUnsigned 16 (2 ^ 16) portHex).getD 0

end TcpRow

def established : List Char := ['0', '1']

def tcpRows (content : List Char) : List TcpRow := ((lines content).drop 1).map splitWhitespace

/-- What the scan does at a row; `none` goes on with the next one. -/
def scanRow (peerPort : Nat) (row : TcpRow) : Option (Except String Nat) :=
  if row.length < 10 then none
  else
    match row.localPort with
    | none => none
    | some localPort =>
      if row.state ≠ established then none
      else if localPort = peerPort then
        match row.inode with
        | none => some (.error ("Failed to parse inode from " ++ String.ofList row.inodeField))
        | some inode => if inode = 0 then none else some (.ok inode)
      else none

namespace ProcFs

variable (proc : ProcFs)

def tables : List (Option (List Char)) := [proc.netTcp, proc.netTcp6]

def scanTable (peerPort : Nat) : Option (List Char) → Option (Except String Nat)
  | none => none
  | some content => (tcpRows content).findSome? (scanRow peerPort)

def parseProcNetTcp (pid peerPort : Nat) : Except String Nat :=
  match proc.tables.findSome? (scanTable peerPort) with
  | some result => result
  | none => .error ("No ESTABLISHED TCP connection found for port " ++ toString peerPort ++ " in /proc/" ++
      toString pid ++ "/net/tcp\x7b,6\x7d")

def socketLink (inode : Nat) : String := "socket:[" ++ toString inode ++ "]"

def checkPidFds (pid : Nat) (target : String) : Bool :=
  match proc.fdLinks pid with
  | none => false
  | some links => links.any (· = target)

def findPidBySocketInode (inode entrypointPid : Nat) : Except String Nat :=
  match proc.descendants.find? (proc.checkPidFds · (socketLink inode)) with
  | some pid => .ok pid
  | none =>
    match (proc.pids.getD []).find? fun pid =>
        !proc.descendants.contains pid && proc.checkPidFds pid (socketLink inode) with
    | some pid => .ok pid
    | none => .error ("No process found owning socket inode " ++ toString inode ++ " (scanned " ++
        toString proc.descendants.length ++ " descendants of entrypoint PID " ++ toString entrypointPid ++
        "). Hint: the container may need --cap-add=SYS_PTRACE to read /proc/<pid>/fd/ for processes running as a " ++
        "different user.")

def binaryPath (pid : Nat) : Except String String :=
  match proc.exe pid with
  | .ok path => .ok path
  | .error reason => .error ("Failed to read /proc/" ++ toString pid ++ "/exe: " ++ reason ++
      ". Cannot determine binary identity — denying request. Hint: the proxy may need CAP_SYS_PTRACE or to run as " ++
      "the same user.")

def resolveTcpPeerIdentity (entrypointPid peerPort : Nat) : Except String (String × Nat) := do
  let inode ← proc.parseProcNetTcp entrypointPid peerPort
  let pid ← proc.findPidBySocketInode inode entrypointPid
  let path ← proc.binaryPath pid
  return (path, pid)

/-- The rows of both tables in the order of the scan. -/
def rows : List TcpRow := proc.tables.flatMap fun table => (table.map tcpRows).getD []

end ProcFs

/-! The row of a connection. -/

/-- The kernel prints each 32-bit word of an address in the byte order of the host, which is little-endian. -/
def byteSwap (word : BitVec 32) : BitVec 32 :=
  word.extractLsb' 0 8 ++ word.extractLsb' 8 8 ++ word.extractLsb' 16 8 ++ word.extractLsb' 24 8

def readWord (digits : List Char) : Option (BitVec 32) :=
  (parseUnsigned 16 (2 ^ 32) digits).map fun value => byteSwap (BitVec.ofNat 32 value)

/-- An IPv4 address has eight digits, an IPv6 address four words of eight; a mapped address is the IPv4 one. -/
def readTableIp (digits : List Char) : Option IpAddr :=
  if digits.length = 8 then (readWord digits).map fun word => .v4 ⟨word⟩
  else if digits.length = 32 then do
    let first ← readWord (digits.take 8)
    let second ← readWord ((digits.drop 8).take 8)
    let third ← readWord ((digits.drop 16).take 8)
    let fourth ← readWord (digits.drop 24)
    let addr : Ipv6Addr := ⟨first ++ second ++ third ++ fourth⟩
    match addr.toIpv4Mapped with
    | some mapped => some (.v4 mapped)
    | none => some (.v6 addr)
  else none

def readTableAddress (text : List Char) : Option SocketAddr := do
  let (ipHex, portHex) ← rsplitOnce ':' text
  let ip ← readTableIp ipHex
  let port ← parseUnsigned 16 (2 ^ 16) portHex
  some ⟨ip, UInt16.ofNat port⟩

/-- An established row of a socket from `client` to `remote`. -/
structure TcpRow.Connects (client remote : SocketAddr) (row : TcpRow) (inode : Nat) : Prop where
  whole : 10 ≤ row.length
  fromClient : readTableAddress row.localAddress = some client
  toRemote : readTableAddress row.remoteAddress = some remote
  isEstablished : row.state = established
  numbered : row.inode = some inode
  live : inode ≠ 0

/-- The row is the only one of the connection in the two tables. -/
structure ProcFs.OnlyRow (proc : ProcFs) (client remote : SocketAddr) (before : List TcpRow) (row : TcpRow)
    (after : List TcpRow) (inode : Nat) : Prop where
  listed : proc.rows = before ++ row :: after
  connects : row.Connects client remote inode
  alone : ∀ other ∈ before ++ after, ∀ number, ¬ other.Connects client remote number

/-- A row the scan takes for the peer: its local port and state fit, and its inode field is not zero. -/
structure TcpRow.Candidate (peerPort : Nat) (row : TcpRow) : Prop where
  whole : 10 ≤ row.length
  port : row.localPort = some peerPort
  isEstablished : row.state = established
  live : row.inode ≠ some 0

/-- The first candidate of the rows has another inode, or none that can be read. -/
def Shadowed (peerPort inode : Nat) (before : List TcpRow) : Prop :=
  ∃ first other rest, before = first ++ other :: rest ∧ other.Candidate peerPort ∧ other.inode ≠ some inode ∧
    ∀ earlier ∈ first, ¬ earlier.Candidate peerPort

def ProcFs.Holds (proc : ProcFs) (pid inode : Nat) : Prop :=
  ∃ links, proc.fdLinks pid = some links ∧ socketLink inode ∈ links

section Scan

variable {peerPort inode : Nat} {row : TcpRow} {proc : ProcFs}

/-- At a candidate the scan ends, with its inode or with an error. -/
theorem scanRow_candidate (candidate : row.Candidate peerPort) :
    scanRow peerPort row = some (row.inode.elim
      (.error ("Failed to parse inode from " ++ String.ofList row.inodeField)) .ok) := by
  have whole : ¬ row.length < 10 := Nat.not_lt.mpr candidate.whole
  unfold scanRow
  rw [if_neg whole]
  simp only [candidate.port, candidate.isEstablished, ne_eq, not_true_eq_false, if_false, if_true]
  cases read : row.inode with
  | none => rfl
  | some number =>
    have live : number ≠ 0 := fun zero => candidate.live (zero ▸ read)
    simp [live]

theorem scanRow_other (other : ¬ row.Candidate peerPort) : scanRow peerPort row = none := by
  unfold scanRow
  split
  · rfl
  · rename_i long
    cases port : row.localPort with
    | none => rfl
    | some found =>
      by_cases isEstablished : row.state = established
      · by_cases same : found = peerPort
        · have zero : row.inode = some 0 := by
            by_contra live
            exact other ⟨Nat.le_of_not_lt long, same ▸ port, isEstablished, live⟩
          simp [isEstablished, same, zero]
        · simp [isEstablished, same]
      · simp [isEstablished]

theorem scanRow_eq_none_iff : scanRow peerPort row = none ↔ ¬ row.Candidate peerPort := by
  constructor
  · intro skipped candidate
    rw [scanRow_candidate candidate] at skipped
    cases skipped
  · exact scanRow_other

theorem parseProcNetTcp_eq (pid : Nat) {result : Except String Nat}
    (found : proc.rows.findSome? (scanRow peerPort) = some result) : proc.parseProcNetTcp pid peerPort = result := by
  have flat : proc.tables.findSome? (ProcFs.scanTable peerPort) = proc.rows.findSome? (scanRow peerPort) := by
    have table : ∀ content, ProcFs.scanTable peerPort content =
        ((content.map tcpRows).getD []).findSome? (scanRow peerPort) := by
      intro content
      cases content <;> rfl
    simp only [ProcFs.rows, ProcFs.tables, List.flatMap_cons, List.flatMap_nil, List.append_nil,
      List.findSome?_append, List.findSome?_cons, List.findSome?_nil, table]
    cases ((proc.netTcp.map tcpRows).getD []).findSome? (scanRow peerPort) with
    | some result => rfl
    | none => cases ((proc.netTcp6.map tcpRows).getD []).findSome? (scanRow peerPort) <;> rfl
  unfold ProcFs.parseProcNetTcp
  rw [flat, found]

/-- The first candidate decides. -/
theorem parse_first (pid : Nat) {first rest : List TcpRow} (listed : proc.rows = first ++ row :: rest)
    (others : ∀ earlier ∈ first, ¬ earlier.Candidate peerPort) (candidate : row.Candidate peerPort) :
    proc.parseProcNetTcp pid peerPort = row.inode.elim
      (.error ("Failed to parse inode from " ++ String.ofList row.inodeField)) .ok := by
  apply parseProcNetTcp_eq
  have skipped : first.findSome? (scanRow peerPort) = none := by
    apply List.findSome?_eq_none_iff.mpr
    intro earlier member
    exact scanRow_eq_none_iff.mpr (others earlier member)
  rw [listed, List.findSome?_append, skipped, List.findSome?_cons, scanRow_candidate candidate]
  rfl

theorem TcpRow.Connects.candidate {client remote : SocketAddr} (connects : row.Connects client remote inode) :
    row.Candidate client.port.toNat := by
  have port : row.localPort = some client.port.toNat := by
    have address := connects.fromClient
    unfold readTableAddress at address
    simp only [bind, Option.bind_eq_some_iff] at address
    obtain ⟨⟨ipHex, portHex⟩, cut, ip, _, number, read, same⟩ := address
    cases same
    have small : number < 2 ^ 16 := parseUnsigned_lt (by decide) read
    have shown : (parseUnsigned 16 (2 ^ 16) portHex).getD 0 = number := by rw [read, Option.getD_some]
    have same : (UInt16.ofNat number).toNat = number := UInt16.toNat_ofNat_of_lt small
    simp only [TcpRow.localPort, cut, Option.map_some, shown, same]
  exact ⟨connects.whole, port, connects.isEstablished, by simp [connects.numbered, connects.live]⟩

theorem holds_of_findPid {entrypointPid pid : Nat} (found : proc.findPidBySocketInode inode entrypointPid = .ok pid) :
    proc.Holds pid inode := by
  have held : proc.checkPidFds pid (ProcFs.socketLink inode) = true := by
    unfold ProcFs.findPidBySocketInode at found
    split at found
    · rename_i descendant first
      cases found
      simpa using List.find?_some first
    · split at found
      · rename_i listed first
        cases found
        have checks := List.find?_some first
        simp only [Bool.and_eq_true] at checks
        exact checks.2
      · cases found
  unfold ProcFs.checkPidFds at held
  split at held
  · cases held
  · rename_i links readable
    exact ⟨links, readable, by simpa using held⟩

/-- The inode returned for a connection is that of its row, and a process that is named holds that socket. -/
def ProcFs.Attributes (proc : ProcFs) (pid : Nat) (client : SocketAddr) (inode : Nat) : Prop :=
  proc.parseProcNetTcp pid client.port.toNat = .ok inode ∧
    ∀ path owner, proc.resolveTcpPeerIdentity pid client.port.toNat = .ok (path, owner) → proc.Holds owner inode

theorem attributes_of_parse {pid : Nat} {client : SocketAddr}
    (parsed : proc.parseProcNetTcp pid client.port.toNat = .ok inode) : proc.Attributes pid client inode := by
  refine ⟨parsed, ?_⟩
  intro path owner resolved
  unfold ProcFs.resolveTcpPeerIdentity at resolved
  rw [parsed] at resolved
  cases found : proc.findPidBySocketInode inode pid with
  | error message => simp [found, bind, Except.bind] at resolved
  | ok holder =>
    have same : holder = owner := by
      cases path' : proc.binaryPath holder with
      | error message => simp [found, path', bind, Except.bind] at resolved
      | ok binary =>
        simp [found, path', bind, Except.bind, pure, Except.pure] at resolved
        exact resolved.2
    exact same ▸ holds_of_findPid found

theorem attributes_iff_not_shadowed (proc : ProcFs) (pid : Nat) (client remote : SocketAddr) (before : List TcpRow)
    (row : TcpRow) (after : List TcpRow) (inode : Nat) (only : proc.OnlyRow client remote before row after inode) :
    proc.Attributes pid client inode ↔ ¬ Shadowed client.port.toNat inode before := by
  constructor
  · rintro ⟨parsed, _⟩ ⟨first, other, rest, cut, candidate, apart, others⟩
    have listed : proc.rows = first ++ other :: (rest ++ row :: after) := by
      rw [only.listed, cut]
      simp
    rw [parse_first pid listed others candidate] at parsed
    cases read : other.inode with
    | none =>
      rw [read] at parsed
      cases parsed
    | some number =>
      rw [read] at parsed
      cases parsed
      exact apart read
  · intro clear
    apply attributes_of_parse
    cases scanned : before.findSome? (scanRow client.port.toNat) with
    | none =>
      have others : ∀ other ∈ before, ¬ other.Candidate client.port.toNat := by
        intro other member
        exact scanRow_eq_none_iff.mp (List.findSome?_eq_none_iff.mp scanned other member)
      rw [parse_first pid only.listed others only.connects.candidate, only.connects.numbered]
      rfl
    | some result =>
      -- An earlier candidate ends the scan; as the row is not shadowed it has the same inode.
      obtain ⟨first, other, rest, cut, stops, skipped⟩ := List.findSome?_eq_some_iff.mp scanned
      have candidate : other.Candidate client.port.toNat := by
        by_contra isOther
        rw [scanRow_eq_none_iff.mpr isOther] at stops
        cases stops
      have others : ∀ earlier ∈ first, ¬ earlier.Candidate client.port.toNat := by
        intro earlier member
        exact scanRow_eq_none_iff.mp (skipped earlier member)
      have same : other.inode = some inode := by
        by_contra apart
        exact clear ⟨first, other, rest, cut, candidate, apart, others⟩
      have listed : proc.rows = first ++ other :: (rest ++ row :: after) := by
        rw [only.listed, cut]
        simp
      rw [parse_first pid listed others candidate, same]
      rfl

end Scan

/-! A second socket of the sandbox on the same local port, bound to the loopback address. -/

section SharedPort

def tableHeader : List Char := "sl local_address rem_address st\n".toList

def loopbackLine : List Char := "0: 0100007F:8F4C 0100007F:0016 01 0:0 0:0 0 1000 0 111\n".toList

def proxyLine : List Char := "1: 0200C80A:8F4C 0100C80A:0C38 01 0:0 0:0 0 1000 0 222\n".toList

def clientAddr : SocketAddr := ⟨.v4 ⟨0x0AC80002⟩, 36684⟩

def proxyAddr : SocketAddr := ⟨.v4 ⟨0x0AC80001⟩, 3128⟩

def tablesOf (rows : List Char) : ProcFs :=
  { netTcp := some (tableHeader ++ rows), netTcp6 := none, descendants := [7], pids := none,
    fdLinks := fun _ => some [ProcFs.socketLink 222], exe := fun _ => .ok "/usr/bin/curl" }

def loopbackRow : TcpRow := splitWhitespace loopbackLine

def proxyRow : TcpRow := splitWhitespace proxyLine

theorem proxyRow_connects : proxyRow.Connects clientAddr proxyAddr 222 :=
  ⟨by decide, by decide, by decide, by decide, by decide, by decide⟩

theorem loopbackRow_other (number : Nat) : ¬ loopbackRow.Connects clientAddr proxyAddr number := by
  intro connects
  have apart : readTableAddress loopbackRow.localAddress ≠ some clientAddr := by decide
  exact apart connects.fromClient

theorem onlyRow_behind_loopback : (tablesOf (loopbackLine ++ proxyLine)).OnlyRow clientAddr proxyAddr [loopbackRow]
    proxyRow [] 222 := by
  refine ⟨by decide, proxyRow_connects, ?_⟩
  intro other member
  have same : other = loopbackRow := by simpa using member
  exact same ▸ loopbackRow_other

theorem shared_port_misattributed :
    ¬ ∀ (proc : ProcFs) (pid : Nat) (client remote : SocketAddr) (before : List TcpRow) (row : TcpRow)
      (after : List TcpRow) (inode : Nat), proc.OnlyRow client remote before row after inode →
        proc.Attributes pid client inode := by
  intro attributes
  obtain ⟨parsed, _⟩ := attributes _ 1 clientAddr proxyAddr _ _ _ _ onlyRow_behind_loopback
  revert parsed
  decide +kernel

theorem first_row_attributed :
    (tablesOf (proxyLine ++ loopbackLine)).Attributes 1 clientAddr 222 ↔ ¬ Shadowed 36684 222 [] := by
  apply attributes_iff_not_shadowed (tablesOf (proxyLine ++ loopbackLine)) 1 clientAddr proxyAddr [] proxyRow
    [loopbackRow] 222
  refine ⟨by decide +kernel, proxyRow_connects, ?_⟩
  intro other member
  have same : other = loopbackRow := by simpa using member
  exact same ▸ loopbackRow_other

end SharedPort

end OpenShell.Sandbox
