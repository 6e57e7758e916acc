import OpenShell.Sandbox.DenialDrafts

namespace OpenShell.Sandbox

open Net

/-! One lookup, seen by the mapper and by the proxy. -/

section Lookup

variable {dialer : Dialer} {lookupHost : String → Except String (List SocketAddr)} {host : String} {port : UInt16}
  {addrs : List SocketAddr}

theorem parseAllowedIp_text (lawful : dialer.nets.Lawful) (ip : IpAddr) :
    dialer.parseAllowedIp ip.text = some (dialer.nets.ofAddr ip) := by
  have read := parse_text ip
  unfold Dialer.parseAllowedIp
  rw [lawful.parse_bare _ _ read, read]
  rfl

theorem rejectInternal_error_iff (looked : dialer.lookupHost host port = .ok addrs) (answered : addrs ≠ []) :
    (∃ error, dialer.resolveAndRejectInternal host port = .error error) ↔ addrs.any (isInternalIp ·.ip) = true := by
  have found := Dialer.lookup_of_answered looked answered
  cases internal : addrs.any (isInternalIp ·.ip) with
  | false =>
    rw [Dialer.rejectInternal_of_abroad found internal]
    simp
  | true =>
    have some : (addrs.find? (isInternalIp ·.ip)).isSome = true := by
      rw [List.find?_isSome]
      simpa using internal
    obtain ⟨addr, first⟩ := Option.isSome_iff_exists.mp some
    unfold Dialer.resolveAndRejectInternal
    simp only [found, bind, Except.bind, first]
    simp

theorem resolveAllowedIps_of_resolved
    (resolved : lookupHost (host ++ ":" ++ toString port.toUInt32) = .ok addrs) :
    Mapper.resolveAllowedIpsIfPrivate lookupHost host port.toUInt32 = Mapper.allowedIpsFor addrs := by
  unfold Mapper.resolveAllowedIpsIfPrivate
  rw [resolved]

theorem proposes_iff (resolved : lookupHost (host ++ ":" ++ toString port.toUInt32) = .ok addrs) (answered : addrs ≠ []) :
    Mapper.resolveAllowedIpsIfPrivate lookupHost host port.toUInt32 ≠ [] ↔
      addrs.any (Mapper.isInternalIp ·.ip) = true := by
  rw [resolveAllowedIps_of_resolved resolved]
  constructor
  · intro proposed
    obtain ⟨entry, member⟩ := List.exists_mem_of_ne_nil _ proposed
    exact (Mapper.mem_allowedIpsFor.mp member).1
  · intro internal
    obtain ⟨addr, member⟩ := List.exists_mem_of_ne_nil _ answered
    exact List.ne_nil_of_mem (Mapper.mem_allowedIpsFor.mpr ⟨internal, addr, member, rfl⟩)

/-- The mapper proposes addresses exactly where the proxy rejects the host, and what it proposes is parsed to networks with
every address of the lookup in them, unless one of these is always blocked. -/
structure Agree (dialer : Dialer) (host : String) (port : UInt16) (proposed : List String) (addrs : List SocketAddr) :
    Prop where
  rejected : proposed ≠ [] ↔ ∃ error, dialer.resolveAndRejectInternal host port = .error error
  covered : proposed ≠ [] → ∃ nets, dialer.parseAllowedIps proposed = .ok nets ∧
    ((∀ addr ∈ addrs, ∃ net ∈ nets, dialer.nets.contains net addr.ip = true) ∨
      ∃ addr ∈ addrs, isAlwaysBlockedIp addr.ip = true)

theorem proposed_covers (lawful : dialer.nets.Lawful) (internal : addrs.any (Mapper.isInternalIp ·.ip) = true) :
    ∃ nets, dialer.parseAllowedIps (Mapper.allowedIpsFor addrs) = .ok nets ∧
      ∀ addr ∈ addrs, ∃ net ∈ nets, dialer.nets.contains net addr.ip = true := by
  refine ⟨_, Dialer.parseAllowedIps_eq_ok.mpr ⟨?_, rfl⟩, ?_⟩
  · intro entry member
    obtain ⟨_, addr, _, rfl⟩ := Mapper.mem_allowedIpsFor.mp member
    rw [parseAllowedIp_text lawful]
    rfl
  · intro addr member
    have listed := Mapper.mem_allowedIpsFor.mpr ⟨internal, addr, member, rfl⟩
    exact ⟨dialer.nets.ofAddr addr.ip, List.mem_filterMap.mpr ⟨_, listed, parseAllowedIp_text lawful addr.ip⟩,
      (lawful.contains_ofAddr _ _).mpr rfl⟩

theorem any_isInternalIp_or (addrs : List SocketAddr) : addrs.any (isInternalIp ·.ip) =
    (addrs.any (Mapper.isInternalIp ·.ip) || addrs.any (Mapper.isUnspecifiedIp ·.ip)) := by
  induction addrs with
  | nil => rfl
  | cons addr addrs ih =>
    rw [List.any_cons, List.any_cons, List.any_cons, ih, Mapper.isInternalIp_or_unspecified]
    cases Mapper.isInternalIp addr.ip <;> cases Mapper.isUnspecifiedIp addr.ip <;> simp

/-- The two agree exactly if no address is unspecified, or one is internal to the mapper. -/
theorem mapper_agrees_iff (lawful : dialer.nets.Lawful)
    (resolved : lookupHost (host ++ ":" ++ toString port.toUInt32) = .ok addrs)
    (looked : dialer.lookupHost host port = .ok addrs) (answered : addrs ≠ []) :
    Agree dialer host port (Mapper.resolveAllowedIpsIfPrivate lookupHost host port.toUInt32) addrs ↔
      (∀ addr ∈ addrs, Mapper.isUnspecifiedIp addr.ip = false) ∨ ∃ addr ∈ addrs, Mapper.isInternalIp addr.ip = true := by
  have proposes := proposes_iff resolved answered
  have rejects := rejectInternal_error_iff looked answered
  rw [any_isInternalIp_or, Bool.or_eq_true] at rejects
  have condition : ((∀ addr ∈ addrs, Mapper.isUnspecifiedIp addr.ip = false) ∨
      ∃ addr ∈ addrs, Mapper.isInternalIp addr.ip = true) ↔
      (addrs.any (Mapper.isUnspecifiedIp ·.ip) = true → addrs.any (Mapper.isInternalIp ·.ip) = true) := by
    rw [List.any_eq_true, List.any_eq_true]
    constructor
    · intro either unspecified
      obtain ⟨addr, member, held⟩ := unspecified
      rcases either with absent | internal
      · rw [absent addr member] at held
        cases held
      · exact internal
    · intro counted
      by_cases internal : ∃ addr ∈ addrs, Mapper.isInternalIp addr.ip = true
      · exact .inr internal
      · refine .inl fun addr member => ?_
        rw [← Bool.not_eq_true]
        intro held
        exact internal (counted ⟨addr, member, held⟩)
  rw [condition]
  constructor
  · intro agree unspecified
    exact proposes.mp (agree.rejected.mpr (rejects.mpr (.inr unspecified)))
  · intro counted
    constructor
    · rw [proposes, rejects]
      constructor
      · intro internal
        exact .inl internal
      · intro either
        rcases either with internal | unspecified
        · exact internal
        · exact counted unspecified
    · intro proposed
      rw [resolveAllowedIps_of_resolved resolved]
      obtain ⟨nets, parsed, covers⟩ := proposed_covers lawful (proposes.mp proposed)
      exact ⟨nets, parsed, .inl covers⟩

end Lookup

section Example

/-- A resolver with one answer. -/
def answering (addrs : List SocketAddr) : Dialer := ⟨bareNets, fun _ _ => .ok addrs⟩

/-- The proxy rejects what the mapper has no proposal for. -/
theorem unspecified_not_proposed : ¬∀ (dialer : Dialer) (lookupHost : String → Except String (List SocketAddr)) host
    (port : UInt16) addrs, dialer.nets.Lawful → IpAddr.parse host.toList = none → addrs ≠ [] →
      lookupHost (host ++ ":" ++ toString port.toUInt32) = .ok addrs → dialer.lookupHost host port = .ok addrs →
      Agree dialer host port (Mapper.resolveAllowedIpsIfPrivate lookupHost host port.toUInt32) addrs := by
  intro agree
  have both := agree (answering [⟨.v4 ⟨0⟩, 80⟩]) (fun _ => .ok [⟨.v4 ⟨0⟩, 80⟩]) "db.internal" 80 [⟨.v4 ⟨0⟩, 80⟩]
    bareNets_lawful (by decide +kernel) (by simp) rfl rfl
  have rejected : ∃ error, (answering [⟨.v4 ⟨0⟩, 80⟩]).resolveAndRejectInternal "db.internal" 80 = .error error :=
    ⟨_, rfl⟩
  exact both.rejected.mpr rejected rfl

theorem private_proposed : Agree (answering [⟨.v4 ⟨0x0A000005⟩, 80⟩]) "db.internal" 80
    (Mapper.resolveAllowedIpsIfPrivate (fun _ => .ok [⟨.v4 ⟨0x0A000005⟩, 80⟩]) "db.internal" (80 : UInt16).toUInt32)
    [⟨.v4 ⟨0x0A000005⟩, 80⟩] :=
  (mapper_agrees_iff bareNets_lawful rfl rfl (by simp)).mpr (.inl (by decide +kernel))

end Example

end OpenShell.Sandbox
