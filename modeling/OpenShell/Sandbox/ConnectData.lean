import OpenShell.Sandbox.Destinations
import OpenShell.Sandbox.ForwardedRequest

namespace OpenShell.Sandbox

open Text Net Streams

/-! What a client sends behind the header of a CONNECT, and what the tunnel gets of it. -/

/-- A read delivers a whole piece, or as much as it may. -/
theorem read_piece {limit : Nat} {stream rest : ByteStream} {block : List UInt8}
    (delivered : stream.read limit = .data block rest) :
    stream.segments = block :: rest.segments ∨
      ∃ segment, stream.segments.head? = some segment ∧ limit < segment.length ∧ block.length = limit := by
  unfold ByteStream.read at delivered
  cases pieces : stream.segments with
  | nil =>
    rw [pieces] at delivered
    simp only at delivered
    split at delivered <;> cases delivered
  | cons segment later =>
    rw [pieces] at delivered
    cases delivered
    by_cases short : segment.length ≤ limit
    · left
      rw [List.take_of_length_le short]
      change _ = segment :: ByteStream.cut limit stream.segments
      rw [pieces, ByteStream.cut, if_pos short]
    · right
      exact ⟨segment, rfl, by omega, List.length_take_of_le (by omega)⟩

section Header

variable {fuel : Nat} {held buf header : List UInt8} {client rest : ByteStream}

theorem readHeaderFor_fits (room : held.length ≤ maxProxyHeaderBytes)
    (found : readHeaderFor fuel held client = .found buf rest) : buf.length ≤ maxProxyHeaderBytes := by
  induction fuel generalizing held client with
  | zero => cases found
  | succ fuel ih =>
    rw [readHeaderFor] at found
    split at found
    · cases found
    · split at found
      · cases found
      · cases found
      · rename_i block later delivered
        obtain ⟨_, fits, _⟩ := ByteStream.read_data delivered
        have roomToo : (held ++ block).length ≤ maxProxyHeaderBytes := by
          rw [List.length_append]
          omega
        split at found
        · cases found
          exact roomToo
        · exact ih roomToo found

/-- The header is read up to the end of a piece, or until the buffer is full. -/
theorem readHeaderFor_boundary (room : held.length ≤ maxProxyHeaderBytes)
    (found : readHeaderFor fuel held client = .found buf rest) :
    buf.length = maxProxyHeaderBytes ∨ ∃ pieces, buf = held ++ (client.segments.take pieces).flatten := by
  induction fuel generalizing held client with
  | zero => cases found
  | succ fuel ih =>
    rw [readHeaderFor] at found
    split at found
    · cases found
    · split at found
      · cases found
      · cases found
      · rename_i block later delivered
        obtain ⟨_, fits, _⟩ := ByteStream.read_data delivered
        have roomToo : (held ++ block).length ≤ maxProxyHeaderBytes := by
          rw [List.length_append]
          omega
        split at found
        · cases found
          rcases read_piece delivered with whole | ⟨_, _, _, full⟩
          · refine .inr ⟨1, ?_⟩
            rw [whole]
            simp
          · left
            rw [List.length_append]
            omega
        · rcases ih roomToo found with filled | ⟨pieces, same⟩
          · exact .inl filled
          · rcases read_piece delivered with whole | ⟨_, _, _, full⟩
            · refine .inr ⟨pieces + 1, ?_⟩
              rw [same, whole, List.take_succ_cons, List.flatten_cons, List.append_assoc]
            · -- a full buffer without the end of the header is refused
              cases fuel with
              | zero => cases found
              | succ fuel =>
                rw [readHeaderFor, if_pos (by rw [List.length_append]; omega)] at found
                cases found

theorem eq_of_headerEnd (ended : headerEnd header = some header.length) (part : held <+: header)
    (complete : (headerEnd held).isSome = true) : held = header := by
  by_contra other
  have shorter : held.length < header.length := by
    have bound := part.length_le
    have differs : held.length ≠ header.length := fun same => other (part.eq_of_length same)
    omega
  rw [headerEnd_of_short ended part shorter] at complete
  cases complete

/-- A header whose end is the end of a piece is read alone. -/
theorem readHeaderFor_pieces {pieces : Nat} (ended : headerEnd header = some header.length)
    (small : header.length ≤ maxProxyHeaderBytes) (aligned : held ++ (client.segments.take pieces).flatten = header)
    (missing : held ≠ header) (found : readHeaderFor fuel held client = .found buf rest) : buf = header := by
  induction fuel generalizing held client pieces with
  | zero => cases found
  | succ fuel ih =>
    rw [readHeaderFor] at found
    split at found
    · cases found
    · split at found
      · cases found
      · cases found
      · rename_i block later delivered
        obtain ⟨pieces, rfl⟩ : ∃ fewer, pieces = fewer + 1 := by
          cases pieces with
          | zero =>
            rw [List.take_zero, List.flatten_nil, List.append_nil] at aligned
            exact absurd aligned missing
          | succ pieces => exact ⟨pieces, rfl⟩
        have whole : client.segments = block :: later.segments := by
          rcases read_piece delivered with whole | ⟨segment, first, long, _⟩
          · exact whole
          · obtain ⟨others, split⟩ := List.head?_eq_some_iff.mp first
            have lengths := congrArg List.length aligned
            rw [split, List.take_succ_cons, List.flatten_cons, List.length_append, List.length_append] at lengths
            omega
        rw [whole, List.take_succ_cons, List.flatten_cons, ← List.append_assoc] at aligned
        split at found
        · rename_i complete
          cases found
          exact eq_of_headerEnd ended ⟨_, aligned⟩ complete
        · rename_i open_header
          refine ih aligned ?_ found
          rintro rfl
          rw [ended] at open_header
          exact open_header rfl

end Header

namespace Proxy

variable {proxy : Proxy} {client tunnel : ByteStream} {header data : List UInt8}

/-- What the stage behind the header of a CONNECT reads from: the tunnel to the upstream, or the interception of
inference requests. -/
def tunnelClient (proxy : Proxy) (client : ByteStream) : Option ByteStream :=
  match readHeader client with
  | .found _ rest =>
    match proxy.handleTcpConnection client with
    | .inference _ => some rest
    | .dialled _ _ (.established tunnel _) => some tunnel
    | _ => none
  | _ => none

theorem tunnel_of_connect {target : List Char} {destination : Destination} {addrs : List SocketAddr}
    {upstream : ByteStream}
    (ran : proxy.handleConnect target client = .dialled destination addrs (.established tunnel upstream)) :
    tunnel = client := by
  unfold handleConnect at ran
  split at ran
  · cases ran
  · split at ran
    · cases ran
    · simp only at ran
      split at ran
      · cases ran
      · split at ran
        · cases ran
        · simp only [Outcome.dialled.injEq] at ran
          obtain ⟨_, _, linked⟩ := ran
          split at linked
          · cases linked
          · cases linked
            rfl

theorem no_tunnel_of_forward {method target : List Char} {buf : List UInt8} {destination : Destination}
    {addrs : List SocketAddr} {upstream : ByteStream} :
    proxy.handleForwardProxy method target buf client ≠ .dialled destination addrs (.established tunnel upstream) := by
  intro ran
  unfold handleForwardProxy at ran
  split at ran
  · cases ran
  · split at ran
    · cases ran
    · simp only at ran
      split at ran
      · cases ran
      · split at ran
        · cases ran
        · split at ran
          · cases ran
          · simp only [Outcome.dialled.injEq] at ran
            obtain ⟨_, _, linked⟩ := ran
            unfold forward at linked
            split at linked
            · cases linked
            · split at linked <;> cases linked

theorem found_of_tunnel (tunnels : proxy.tunnelClient client = some tunnel) :
    ∃ buf, readHeader client = .found buf tunnel := by
  unfold tunnelClient handleTcpConnection at tunnels
  cases found : readHeader client with
  | found buf rest =>
    refine ⟨buf, ?_⟩
    simp only [found] at tunnels
    split at tunnels
    · cases tunnels
      rfl
    · rename_i established
      cases tunnels
      split at established
      · rw [tunnel_of_connect established]
      · exact absurd established no_tunnel_of_forward
    · cases tunnels
  | _ => simp [found] at tunnels

/-- The tunnel gets all that is sent behind the header exactly if no read brings the end of the header together with
bytes behind it: the header ends where a piece of what arrives ends, or it fills the buffer. -/
theorem early_data_kept_iff (sent : client.bytes = header ++ data) (ended : headerEnd header = some header.length)
    (tunnels : proxy.tunnelClient client = some tunnel) :
    tunnel.bytes = data ↔
      header.length = maxProxyHeaderBytes ∨ ∃ pieces, (client.segments.take pieces).flatten = header := by
  obtain ⟨buf, found⟩ := found_of_tunnel tunnels
  obtain ⟨same, complete⟩ := readHeaderFor_found found
  rw [List.nil_append, sent] at same
  -- what was read holds the header, since it is complete
  have holds_header : header <+: buf := by
    have parts : header <+: buf ++ tunnel.bytes := ⟨data, same⟩
    rcases List.prefix_or_prefix_of_prefix parts (List.prefix_append buf tunnel.bytes) with here | shorter
    · exact here
    · rw [eq_of_headerEnd ended shorter complete]
  have kept : tunnel.bytes = data ↔ buf = header := by
    constructor
    · rintro rfl
      exact (List.append_cancel_right same).symm
    · rintro rfl
      exact (List.append_cancel_left same).symm
  rw [kept]
  have fits : buf.length ≤ maxProxyHeaderBytes := readHeaderFor_fits (Nat.zero_le _) found
  constructor
  · rintro rfl
    rcases readHeaderFor_boundary (Nat.zero_le _) found with full | ⟨pieces, aligned⟩
    · exact .inl full
    · exact .inr ⟨pieces, aligned.symm⟩
  · rintro (full | ⟨pieces, aligned⟩)
    · exact (holds_header.eq_of_length_le (by omega)).symm
    · refine readHeaderFor_pieces ended ?_ aligned ?_ found
      · exact holds_header.length_le.trans fits
      · rintro rfl
        cases ended

end Proxy

section Example

def noBytes : ByteStream := ⟨[], none, by decide, by decide⟩

def dialingProxy : Proxy := { curlProxy (endpointPolicies "api.example" 443) publicIp with connect := fun _ => .ok noBytes }

/-- The first bytes of a TLS handshake. -/
def hello : List UInt8 := [0x16, 0x03, 0x01]

def eagerClient : ByteStream where
  segments := [connectTo "api.example:443" ++ hello]
  nonempty := by decide +kernel
  bounded := by decide +kernel

def patientClient : ByteStream where
  segments := [connectTo "api.example:443", hello]
  nonempty := by decide +kernel
  bounded := by decide +kernel

theorem eagerClient_tunnels : (dialingProxy.tunnelClient eagerClient).isSome = true := by decide +kernel

theorem patientClient_tunnels : (dialingProxy.tunnelClient patientClient).isSome = true := by decide +kernel

theorem headerEnd_connectTo :
    headerEnd (connectTo "api.example:443") = some (connectTo "api.example:443").length := by decide

/-- A client that does not wait for the answer loses what it sends. -/
theorem early_bytes_lost : ¬∀ (proxy : Proxy) (client tunnel : ByteStream) (header data : List UInt8),
    client.bytes = header ++ data → headerEnd header = some header.length →
      proxy.tunnelClient client = some tunnel → tunnel.bytes = data := by
  intro kept
  obtain ⟨tunnel, tunnels⟩ := Option.isSome_iff_exists.mp eagerClient_tunnels
  have sent : eagerClient.bytes = connectTo "api.example:443" ++ hello := List.append_nil _
  have all := kept dialingProxy eagerClient tunnel _ hello sent headerEnd_connectTo tunnels
  rcases (Proxy.early_data_kept_iff sent headerEnd_connectTo tunnels).mp all with full | ⟨pieces, aligned⟩
  · exact absurd full (by decide +kernel)
  · cases pieces with
    | zero => exact absurd aligned (by decide +kernel)
    | succ pieces =>
      have lengths := congrArg List.length aligned
      rw [eagerClient, List.take_succ_cons, List.take_nil, List.flatten_singleton, List.length_append] at lengths
      exact absurd lengths (by decide +kernel)

theorem patientClient_kept : ∃ tunnel, dialingProxy.tunnelClient patientClient = some tunnel ∧ tunnel.bytes = hello := by
  obtain ⟨tunnel, tunnels⟩ := Option.isSome_iff_exists.mp patientClient_tunnels
  have sent : patientClient.bytes = connectTo "api.example:443" ++ hello := rfl
  exact ⟨tunnel, tunnels, (Proxy.early_data_kept_iff sent headerEnd_connectTo tunnels).mpr (.inr ⟨1, List.append_nil _⟩)⟩

end Example

end OpenShell.Sandbox
