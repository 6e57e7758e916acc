import OpenShell.Sandbox.Framing

namespace OpenShell.Sandbox

open Text Streams

/-! Which bytes of the upstream connection are the response to a request, and which of them the relay of one
response accounts for. -/

def IsBlock (header : List UInt8) : Prop := headerEnd header = some header.length

def statusOf (header : List UInt8) : Nat := (parseStatusCode (utf8DecodeLossy header)).getD 200

def wantsClose (header : List UInt8) : Bool := parseConnectionClose (utf8DecodeLossy header)

def lengthOf (header : List UInt8) : Except String BodyLength := parseBodyLength (utf8DecodeLossy header)

def IsInterim (status : Nat) : Prop := 100 ≤ status ∧ status < 200

def versionOf (header : List UInt8) : Option (List Char) := do
  let statusLine ← (lines (utf8DecodeLossy header)).head?
  (splitWhitespace statusLine).head?

/-- An HTTP/1.1 server that keeps the connection open and announces no length sends no body. -/
def KeepsAlive (header : List UInt8) : Prop :=
  versionOf header = some "HTTP/1.1".toList ∧ wantsClose header = false

/-- A response that is there whole, with `behind` still to come on the connection: a header block, and the body that the
block announces. Where nothing else ends the body the end of the connection does. -/
inductive FinalResponse (method : List Char) : List UInt8 → List UInt8 → Prop
  | bodiless {header behind : List UInt8} (isBlock : IsBlock header) (final : ¬ IsInterim (statusOf header))
      (bare : isBodilessResponse method (statusOf header) = true) : FinalResponse method behind header
  | framed {header body behind : List UInt8} {length : BodyLength} (isBlock : IsBlock header)
      (final : ¬ IsInterim (statusOf header)) (bodied : isBodilessResponse method (statusOf header) = false)
      (announced : lengthOf header = .ok length) (has_length : length ≠ .none) (framed : Framed length body body) :
      FinalResponse method behind (header ++ body)
  | unframed {header behind : List UInt8} (isBlock : IsBlock header) (final : ¬ IsInterim (statusOf header))
      (bodied : isBodilessResponse method (statusOf header) = false) (announced : lengthOf header = .ok .none)
      (keepsAlive : KeepsAlive header) : FinalResponse method behind header
  | untilEof {header body : List UInt8} (isBlock : IsBlock header) (final : ¬ IsInterim (statusOf header))
      (bodied : isBodilessResponse method (statusOf header) = false) (announced : lengthOf header = .ok .none)
      (closes : ¬ KeepsAlive header) : FinalResponse method [] (header ++ body)

inductive OneResponse (method : List Char) (behind : List UInt8) : List UInt8 → Prop
  | final {bytes : List UInt8} (response : FinalResponse method behind bytes) : OneResponse method behind bytes
  | interim {header rest : List UInt8} (isBlock : IsBlock header) (interim : IsInterim (statusOf header))
      (later : OneResponse method behind rest) : OneResponse method behind (header ++ rest)

def RelayOutcome.overflow : RelayOutcome → List UInt8
  | .reusable => []
  | .consumed => []
  | .upgraded overflow => overflow

def closeLine : List UInt8 := utf8Encode "Connection: close\r\n".toList

/-- `forwarded` is what was sent, or has the line that announces the close added to it. -/
inductive Carries : List UInt8 → List UInt8 → Prop
  | plain {sent : List UInt8} : Carries sent sent
  | closing {before after : List UInt8} : Carries (before ++ closeLine ++ after) (before ++ after)

structure Attributed (method : List Char) (upstream : ByteStream) (relayed : RelayedResponse) : Prop where
  single : relayed.outcome = .ok .reusable → OneResponse method relayed.upstream.bytes relayed.forwarded
  accounted : ∀ outcome, relayed.outcome = .ok outcome → ∃ sent, Carries relayed.forwarded sent ∧
    upstream.bytes = sent ++ outcome.overflow ++ relayed.upstream.bytes

/-! How the response has to arrive. -/

/-- The upstream bytes start with this header block, and the reads that bring its last byte bring `ahead` as
    well. A read is made only while the block is not there whole and the limit is not passed. -/
structure HeadRead (upstream : ByteStream) (header ahead : List UInt8) (rest : ByteStream) : Prop where
  isBlock : IsBlock header
  reads : ByteStream.ReadsFor 1024 (min header.length (maxHeaderBytes + 1)) upstream (header ++ ahead) rest

section Head

variable {upstream rest : ByteStream} {buf total header ahead taken : List UInt8} {fuel endsAt : Nat}

theorem IsBlock.unique {other behind further : List UInt8} (isBlock : IsBlock header) (others : IsBlock other)
    (same : header ++ behind = other ++ further) : header = other ∧ behind = further := by
  have first := (headerEnd_append isBlock behind).1
  have second := (headerEnd_append others further).1
  rw [same, second] at first
  exact List.append_inj same (Option.some.inj first).symm

theorem IsBlock.filled (isBlock : IsBlock header) : header ≠ [] := by
  intro empty
  rw [empty] at isBlock
  cases isBlock

theorem isBlock_take (ended : headerEnd buf = some endsAt) : IsBlock (buf.take endsAt) ∧
    (buf.take endsAt).length = endsAt := by
  have bound := (headerEnd_append ended []).2.1
  have length : (buf.take endsAt).length = endsAt := List.length_take_of_le bound
  refine ⟨?_, length⟩
  rw [IsBlock, length]
  exact headerEnd_of_held ended (List.take_prefix _ _) length.ge

theorem readResponseHeadFor_complete (open_end : headerEnd buf = none)
    (read : readResponseHeadFor fuel buf upstream = (.ok (.complete total endsAt), rest)) :
    ∃ taken, total = buf ++ taken ∧ headerEnd total = some endsAt ∧
      ByteStream.ReadsFor 1024 (min endsAt (maxHeaderBytes + 1) - buf.length) upstream taken rest := by
  induction fuel generalizing buf upstream with
  | zero => cases read
  | succ fuel ih =>
    rw [readResponseHeadFor] at read
    split at read
    · cases read
    · rename_i within
      -- as long as the block is not there whole, its end is behind what was read
      have behind (taken : List UInt8) (whole : total = buf ++ taken) (ended : headerEnd total = some endsAt) :
          0 < min endsAt (maxHeaderBytes + 1) - buf.length := by
        have later : buf.length < endsAt := by
          by_contra early
          rw [headerEnd_of_held ended ⟨taken, whole.symm⟩ (by omega)] at open_end
          cases open_end
        omega
      split at read
      · rename_i block later delivered
        split at read
        · rename_i ended
          cases read
          refine ⟨block, rfl, ended, ?_⟩
          rw [← List.append_nil block]
          exact .more (behind block rfl ended) delivered .none
        · rename_i missing
          obtain ⟨taken, whole, ended, reads⟩ := ih missing read
          rw [List.append_assoc] at whole
          rw [List.length_append, Nat.sub_add_eq] at reads
          exact ⟨block ++ taken, whole, ended, .more (behind _ whole ended) delivered reads⟩
      · cases read
      · cases read

theorem readResponseHeadFor_of_reads (isBlock : IsBlock header) (whole : buf ++ taken = header ++ ahead)
    (short : buf.length < header.length) (enough : upstream.bytes.length < fuel)
    (reads : ByteStream.ReadsFor 1024 (min header.length (maxHeaderBytes + 1) - buf.length) upstream taken rest) :
    readResponseHeadFor fuel buf upstream = (.ok (.complete (header ++ ahead) header.length), rest) := by
  have ended := (headerEnd_append isBlock ahead).1
  induction fuel generalizing buf upstream taken with
  | zero => omega
  | succ fuel ih =>
    cases reads with
    | none =>
      have length := congrArg List.length whole
      simp only [List.length_append, List.length_nil] at length
      omega
    | @more _ _ later _ block taken needed delivered reads =>
      have shorter := ByteStream.read_shorter (by decide) delivered
      have part : buf ++ block <+: header ++ ahead := ⟨taken, by rw [← whole, List.append_assoc]⟩
      rw [readResponseHeadFor, if_neg (by omega), delivered]
      simp only
      by_cases complete : header.length ≤ (buf ++ block).length
      · rw [headerEnd_of_held ended part complete]
        rw [List.length_append] at complete
        -- the block is there, so that no further read is made
        cases reads with
        | none =>
          rw [List.append_nil] at whole
          rw [whole]
        | more further _ _ => omega
      · rw [headerEnd_of_short ended part (by omega)]
        rw [Nat.sub_sub, ← List.length_append] at reads
        exact ih (by rw [← whole, List.append_assoc]) (by omega) (by omega) reads

theorem readResponseHead_complete_iff : readResponseHead upstream = (.ok (.complete total endsAt), rest) ↔
    HeadRead upstream (total.take endsAt) (total.drop endsAt) rest ∧ (total.take endsAt).length = endsAt := by
  constructor
  · intro read
    obtain ⟨taken, whole, ended, reads⟩ := readResponseHeadFor_complete (by decide) read
    rw [List.nil_append] at whole
    obtain ⟨isBlock, length⟩ := isBlock_take ended
    refine ⟨⟨isBlock, ?_⟩, length⟩
    rw [length, List.take_append_drop, whole]
    exact reads
  · rintro ⟨head, length⟩
    have reads := head.reads
    have read := readResponseHeadFor_of_reads head.isBlock (List.nil_append _)
      (List.length_pos_iff.mpr head.isBlock.filled) (Nat.lt_succ_self upstream.bytes.length) reads
    rw [List.take_append_drop, length] at read
    exact read

theorem HeadRead.read (head : HeadRead upstream header ahead rest) :
    readResponseHead upstream = (.ok (.complete (header ++ ahead) header.length), rest) := by
  rw [readResponseHead_complete_iff, List.take_left, List.drop_left]
  exact ⟨head, rfl⟩

theorem HeadRead.bytes_eq (head : HeadRead upstream header ahead rest) :
    upstream.bytes = header ++ (ahead ++ rest.bytes) := by
  rw [head.reads.reads.bytes_eq, List.append_assoc]

theorem HeadRead.bounded (head : HeadRead upstream header ahead rest) : (ahead ++ rest.bytes).length < 2 ^ 64 := by
  have bounded : upstream.bytes.length < 2 ^ 64 := upstream.bounded
  rw [head.bytes_eq, List.length_append] at bounded
  omega

end Head

/-! One response, taken apart at its first header block. -/

section Parts

variable {method : List Char} {bytes header body behind forwarded more : List UInt8} {length : BodyLength}

theorem not_interim_of_bodied {status : Nat} (bodied : isBodilessResponse method status = false) :
    ¬ IsInterim status := by
  simp only [isBodilessResponse, Bool.or_eq_false_iff, Bool.and_eq_false_iff, decide_eq_false_iff_not] at bodied
  rintro ⟨low, high⟩
  omega

theorem OneResponse.filled (one : OneResponse method behind bytes) : bytes ≠ [] := by
  cases one with
  | final response =>
    cases response with
    | bodiless isBlock => exact isBlock.filled
    | framed isBlock => exact List.append_ne_nil_of_left_ne_nil isBlock.filled _
    | unframed isBlock => exact isBlock.filled
    | untilEof isBlock => exact List.append_ne_nil_of_left_ne_nil isBlock.filled _
  | interim isBlock => exact List.append_ne_nil_of_left_ne_nil isBlock.filled _

/-- Every final response begins with a header block that is not interim. -/
theorem FinalResponse.block (response : FinalResponse method behind bytes) : ∃ header body, bytes = header ++ body ∧
    IsBlock header ∧ ¬ IsInterim (statusOf header) := by
  cases response with
  | bodiless isBlock final => exact ⟨bytes, [], (List.append_nil bytes).symm, isBlock, final⟩
  | framed isBlock final => exact ⟨_, _, rfl, isBlock, final⟩
  | unframed isBlock final => exact ⟨bytes, [], (List.append_nil bytes).symm, isBlock, final⟩
  | untilEof isBlock final => exact ⟨_, _, rfl, isBlock, final⟩

theorem OneResponse.final_of_bodied (one : OneResponse method behind (header ++ body)) (isBlock : IsBlock header)
    (bodied : isBodilessResponse method (statusOf header) = false) : FinalResponse method behind (header ++ body) := by
  generalize parts : header ++ body = bytes at one
  cases one with
  | final response => exact response
  | interim others interim _ =>
    rw [(isBlock.unique others parts).1] at bodied
    exact absurd interim (not_interim_of_bodied bodied)

theorem FinalResponse.framed_of_bodied (response : FinalResponse method behind (header ++ body))
    (isBlock : IsBlock header) (bodied : isBodilessResponse method (statusOf header) = false)
    (announced : lengthOf header = .ok length) (has_length : length ≠ .none) : Framed length body body := by
  generalize parts : header ++ body = bytes at response
  have unlike {other more : List UInt8} (others : IsBlock other) (same : header ++ body = other ++ more)
      (unannounced : lengthOf other = .ok .none) : False := by
    rw [(isBlock.unique others same).1, unannounced] at announced
    cases announced
    exact has_length rfl
  cases response with
  | bodiless others _ bare =>
    rw [← List.append_nil bytes] at parts
    rw [(isBlock.unique others parts).1, bare] at bodied
    cases bodied
  | framed others _ _ announcedToo _ framed =>
    obtain ⟨rfl, rfl⟩ := isBlock.unique others parts
    rw [announced] at announcedToo
    cases announcedToo
    exact framed
  | unframed others _ _ unannounced =>
    rw [← List.append_nil bytes] at parts
    exact (unlike others parts unannounced).elim
  | untilEof others _ _ unannounced => exact (unlike others parts unannounced).elim

end Parts

/-! The ways a response is relayed once its header block is there. -/

section Branches

variable {method : List Char} {header ahead : List UInt8} {rest : ByteStream} {length : BodyLength}

end Branches

/-! When the response is attributed. -/

section Attribution

variable {method : List Char} {upstream rest : ByteStream} {header ahead : List UInt8} {length : BodyLength}

theorem Attributed.framed {body : List UInt8} {last : ByteStream}
    (attributed : Attributed method upstream ⟨.ok .reusable, last, header ++ body⟩) (isBlock : IsBlock header)
    (bodied : isBodilessResponse method (statusOf header) = false) (announced : lengthOf header = .ok length)
    (has_length : length ≠ .none) : Framed length body body :=
  ((attributed.single rfl).final_of_bodied isBlock bodied).framed_of_bodied isBlock bodied announced has_length

end Attribution

/-! The answer comes in one piece with the `100 Continue` before it. -/

end OpenShell.Sandbox
