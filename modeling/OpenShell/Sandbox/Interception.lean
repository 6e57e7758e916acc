import OpenShell.Lib.ByteStream
import OpenShell.Lib.Machine
import OpenShell.Sandbox.InferenceRequests

namespace OpenShell.Sandbox.Inference

open Text Streams Results

/-! The loop that takes inference requests out of an intercepted connection: one read, one parse, and the rest of the
buffer moved to its front. -/

def maxInferenceBuf : Nat := 10 * 1024 * 1024

def initialInferenceBuf : Nat := 65536

inductive InferenceOutcome where
  | routed
  | denied (reason : String)

/-- The loop as it waits for more bytes: how long its buffer is, the bytes `buf[..used]` in it, whether a request was
    routed before, and what the client still sends. -/
structure Interception where
  capacity : Nat := initialInferenceBuf
  buffered : List UInt8 := []
  routedAny : Bool := false
  client : ByteStream

/-- What the environment answers in one turn: the router to a request, and the connection to a response. -/
structure Answers where
  routed : ParsedHttpRequest → Except String Bool
  written : List UInt8 → Except String Unit

inductive Turn where
  | waiting (next : Interception)
  | ended (outcome : Except String InferenceOutcome)
  | aborted (abort : Abort)

def responseStatusText (status : Nat) : String :=
  match status with
  | 200 => "OK"
  | 400 => "Bad Request"
  | 403 => "Forbidden"
  | 411 => "Length Required"
  | 413 => "Payload Too Large"
  | 500 => "Internal Server Error"
  | 502 => "Bad Gateway"
  | _ => "Unknown"

def formatHttpResponse (status : Nat) (headers : List (List Char × List Char)) (body : List UInt8) : List UInt8 :=
  let statusLine := "HTTP/1.1 ".toList ++ Nat.toDigits 10 status ++ ' ' :: (responseStatusText status).toList ++ crlfText
  let fields := headers.flatMap fun field => field.1 ++ ": ".toList ++ field.2 ++ crlfText
  let length :=
    if headers.any fun field => eqIgnoreAsciiCase field.1 "content-length".toList then []
    else "content-length: ".toList ++ Nat.toDigits 10 body.length ++ crlfText
  utf8Encode (statusLine ++ fields ++ length ++ crlfText) ++ body

namespace Interception

def stop (loop : Interception) (reason : String) : Turn :=
  .ended (.ok (if loop.routedAny then .routed else .denied reason))

/-- What a full buffer leads to. -/
def grow (answers : Answers) (loop : Interception) : Turn :=
  if loop.buffered.length = loop.capacity then
    if maxInferenceBuf ≤ loop.capacity then
      match answers.written (formatHttpResponse 413 [] (utf8Encode "Payload Too Large".toList)) with
      | .error error => .ended (.error error)
      | .ok () => loop.stop "payload too large"
    else .waiting { loop with capacity := min (loop.capacity * 2) maxInferenceBuf }
  else .waiting loop

def route (answers : Answers) (request : ParsedHttpRequest) (consumed : Nat) (loop : Interception) : Turn :=
  match answers.routed request with
  | .error error => .ended (.error error)
  | .ok wasRouted =>
    if wasRouted || loop.routedAny then
      .waiting { loop with buffered := loop.buffered.drop consumed, routedAny := true }
    else .ended (.ok (.denied "connection not allowed by policy"))

def refuse (answers : Answers) (reason : String) : Turn :=
  match answers.written (formatHttpResponse 400 [] (utf8Encode "Bad Request".toList)) with
  | .error error => .ended (.error error)
  | .ok () => .ended (.ok (.denied reason))

/-- The buffer with what was read into it. -/
def handle (overflowChecks : Bool) (answers : Answers) (loop : Interception) : Turn :=
  match tryParseHttpRequest overflowChecks loop.buffered with
  | .ok (.complete request consumed) => loop.route answers request consumed
  | .ok .incomplete => loop.grow answers
  | .ok (.invalid reason) => refuse answers reason
  | .error abort => .aborted abort

/-- One turn of the loop. A read of no bytes is taken for the end. -/
def turn (overflowChecks : Bool) (answers : Answers) (loop : Interception) : Turn :=
  match loop.client.read (loop.capacity - loop.buffered.length) with
  | .failed error => loop.stop ("I/O error: " ++ error.text)
  | .closed => loop.stop "client closed connection"
  | .data block rest =>
    if block.isEmpty then loop.stop "client closed connection"
    else handle overflowChecks answers { loop with buffered := loop.buffered ++ block, client := rest }

end Interception

/-- The loop from turn to turn; where it has ended, nothing follows. -/
def Turn.next (overflowChecks : Bool) : Turn → Answers → Turn
  | .waiting loop, answers => loop.turn overflowChecks answers
  | .ended outcome, _ => .ended outcome
  | .aborted abort, _ => .aborted abort

def interceptionRun (overflowChecks : Bool) (client : ByteStream) (answers : List Answers) : Turn :=
  Machine.run (Turn.next overflowChecks) (.waiting { client }) answers

/-! Between two turns the buffer holds no whole request, unless one came behind the end of another. -/

/-- The bytes hold neither a whole request nor one that is refused, nor one whose length leads out of the machine word. -/
structure HoldsPart (bytes : List UInt8) : Prop where
  accepted : ∀ headerEnd, ¬ HeaderBlock bytes headerEnd none
  unfinished : ∀ headerEnd head, HeaderBlock bytes headerEnd (some head) →
    headerEnd + 4 + head.length < 2 ^ 64 ∧ ∀ body length, ¬ head.Carries (bytes.drop (headerEnd + 4)) body length

theorem holdsPart_iff {bytes : List UInt8} (overflowChecks : Bool) (bounded : bytes.length ≤ maxSlice) :
    tryParseHttpRequest overflowChecks bytes = .ok .incomplete ↔ HoldsPart bytes := by
  rcases tryParse_cases overflowChecks bounded with ⟨parsed, none⟩ | ⟨headerEnd, reason, block, parsed⟩ |
    ⟨headerEnd, head, block⟩
  · refine iff_of_true parsed ⟨fun headerEnd => none headerEnd _, ?_⟩
    intro headerEnd head block
    exact absurd block (none headerEnd _)
  · refine iff_of_false ?_ fun part => part.accepted headerEnd block
    intro incomplete
    rw [parsed] at incomplete
    cases incomplete
  · have only : HoldsPart bytes ↔ headerEnd + 4 + head.length < 2 ^ 64 ∧
        ∀ body length, ¬ head.Carries (bytes.drop (headerEnd + 4)) body length := by
      refine ⟨fun part => part.unfinished headerEnd head block, fun unfinished => ⟨?_, ?_⟩⟩
      · intro other blockToo
        cases (block.unique blockToo).2
      · intro other headToo blockToo
        obtain ⟨rfl, same⟩ := block.unique blockToo
        cases same
        exact unfinished
    rw [only]
    rcases @tryParse_head overflowChecks bytes headerEnd head bounded block with
      ⟨body, length, carries, parsed⟩ | ⟨parsed, small, none⟩ | ⟨large, abort, parsed⟩
    · rw [parsed]
      refine iff_of_false (by rintro ⟨⟩) ?_
      rintro ⟨_, none⟩
      exact none body length carries
    · exact iff_of_true parsed ⟨small, none⟩
    · rw [parsed]
      refine iff_of_false (by rintro ⟨⟩) ?_
      rintro ⟨small, _⟩
      omega

/-- The read of this turn does not bring the end of a request together with a whole one behind it. -/
def SoleRead : Turn → Answers → Prop
  | .waiting loop, _ => ∀ block rest, loop.client.read (loop.capacity - loop.buffered.length) = .data block rest →
      ∀ headerEnd head body length, HeaderBlock (loop.buffered ++ block) headerEnd (some head) →
        head.Carries ((loop.buffered ++ block).drop (headerEnd + 4)) body length →
        HoldsPart ((loop.buffered ++ block).drop (headerEnd + 4 + length))
  | _, _ => True

/-- The buffer fits, and holds a part of a request. -/
structure Interception.Waits (overflowChecks : Bool) (loop : Interception) : Prop where
  fits : loop.buffered.length ≤ loop.capacity
  bounded : loop.capacity ≤ maxInferenceBuf
  incomplete : tryParseHttpRequest overflowChecks loop.buffered = .ok .incomplete

def Turn.Waits (overflowChecks : Bool) : Turn → Prop
  | .waiting loop => loop.Waits overflowChecks
  | _ => True

section Runs

variable {overflowChecks : Bool} {loop : Interception} {answers : Answers}

theorem Interception.waits_grow (fits : loop.buffered.length ≤ loop.capacity) (bounded : loop.capacity ≤ maxInferenceBuf)
    (incomplete : tryParseHttpRequest overflowChecks loop.buffered = .ok .incomplete) :
    (loop.grow answers).Waits overflowChecks := by
  unfold grow
  split
  · split
    · split <;> trivial
    · refine ⟨?_, Nat.min_le_right _ _, incomplete⟩
      simp only
      omega
  · exact ⟨fits, bounded, incomplete⟩

theorem Interception.waits_handle (fits : loop.buffered.length ≤ loop.capacity) (bounded : loop.capacity ≤ maxInferenceBuf)
    (sole : ∀ headerEnd head body length, HeaderBlock loop.buffered headerEnd (some head) →
      head.Carries (loop.buffered.drop (headerEnd + 4)) body length →
      HoldsPart (loop.buffered.drop (headerEnd + 4 + length))) :
    (loop.handle overflowChecks answers).Waits overflowChecks := by
  have small : loop.buffered.length ≤ maxSlice := by
    unfold maxInferenceBuf at bounded
    unfold maxSlice
    omega
  unfold handle
  split
  · rename_i request consumed parsed
    obtain ⟨headerEnd, head, body, length, block, carries, _, rfl⟩ := (tryParse_complete_iff overflowChecks small).mp parsed
    have part := sole headerEnd head body length block carries
    unfold route
    split
    · trivial
    · split
      · refine ⟨?_, bounded, (holdsPart_iff overflowChecks ?_).mpr part⟩
        · simp only [List.length_drop]
          omega
        · simp only [List.length_drop]
          omega
      · trivial
  · rename_i parsed
    exact waits_grow fits bounded parsed
  · unfold refuse
    split <;> trivial
  · trivial

theorem Turn.waits_next {turn : Turn} (waits : turn.Waits overflowChecks) (sole : SoleRead turn answers) :
    (turn.next overflowChecks answers).Waits overflowChecks := by
  cases turn with
  | ended outcome => trivial
  | aborted abort => trivial
  | waiting loop =>
    obtain ⟨fits, bounded, _⟩ : loop.Waits overflowChecks := waits
    rw [Turn.next, Interception.turn]
    split
    · trivial
    · trivial
    · rename_i block rest delivered
      split
      · trivial
      · refine Interception.waits_handle ?_ bounded (sole block rest delivered)
        have short := (ByteStream.read_data delivered).2.1
        simp only [List.length_append]
        omega

end Runs

/-- In every run in which no read brings the end of a request together with a whole one behind it, the loop waits only
    where its buffer holds no whole request. -/
theorem interception_waits (overflowChecks : Bool) (client : ByteStream) (answers : List Answers)
    (sole : Machine.Along (Turn.next overflowChecks) SoleRead (.waiting { client }) answers) {loop : Interception}
    (reached : interceptionRun overflowChecks client answers = .waiting loop) :
    tryParseHttpRequest overflowChecks loop.buffered = .ok .incomplete := by
  have start : (Turn.waiting { client }).Waits overflowChecks := ⟨Nat.zero_le _, (by decide : initialInferenceBuf ≤ maxInferenceBuf), rfl⟩
  have waits := sole.invariant (Turn.Waits overflowChecks) (fun _ _ _ waits sole => Turn.waits_next waits sole) start
  rw [interceptionRun] at reached
  rw [reached] at waits
  exact waits.incomplete

section Example

def pipelined : ByteStream where
  segments := [smallRequest ++ chunkedRequest]
  nonempty := by decide +kernel
  bounded := by decide +kernel

def routes : Answers := ⟨fun _ => .ok true, fun _ => .ok ()⟩

def Turn.buffered : Turn → Option (List UInt8)
  | .waiting loop => some loop.buffered
  | _ => none

theorem waiting_of_buffered {turn : Turn} {buffered : List UInt8} (held : turn.buffered = some buffered) :
    ∃ loop, turn = .waiting loop ∧ loop.buffered = buffered := by
  cases turn with
  | waiting loop => exact ⟨loop, rfl, Option.some.inj held⟩
  | ended outcome => cases held
  | aborted abort => cases held

/-- Two requests that arrive together: the loop answers the first, and then waits with the second in its buffer. -/
theorem pipelined_waits : ∃ loop, interceptionRun true pipelined [routes] = .waiting loop ∧ loop.buffered = chunkedRequest ∧
    tryParseHttpRequest true loop.buffered ≠ .ok .incomplete := by
  obtain ⟨loop, reached, held⟩ := waiting_of_buffered
    (show (interceptionRun true pipelined [routes]).buffered = some chunkedRequest by decide +kernel)
  refine ⟨loop, reached, held, ?_⟩
  rw [held]
  decide +kernel

theorem holdsPart_nil : HoldsPart [] where
  accepted := by
    rintro headerEnd ⟨found, _⟩
    cases found
  unfinished := by
    rintro headerEnd head ⟨found, _⟩
    cases found

/-- A read that ends with the end of a request brings nothing behind it. -/
theorem soleRead_of_whole {loop : Interception} {answers : Answers} {block : List UInt8} {rest : ByteStream}
    {request : ParsedHttpRequest} (delivered : loop.client.read (loop.capacity - loop.buffered.length) = .data block rest)
    (bounded : (loop.buffered ++ block).length ≤ maxSlice)
    (parsed : tryParseHttpRequest true (loop.buffered ++ block) = .ok (.complete request (loop.buffered ++ block).length)) :
    SoleRead (.waiting loop) answers := by
  intro other later deliveredToo headerEnd head body length found carries
  rw [delivered] at deliveredToo
  cases deliveredToo
  have complete := (tryParse_complete_iff true bounded).mpr ⟨headerEnd, head, body, length, found, carries, rfl, rfl⟩
  rw [parsed, Except.ok.injEq, ParseResult.complete.injEq] at complete
  rw [← complete.2, List.drop_length]
  exact holdsPart_nil

def single : ByteStream where
  segments := [smallRequest]
  nonempty := by decide +kernel
  bounded := by decide +kernel

theorem single_waits : ∃ loop, interceptionRun true single [routes] = .waiting loop ∧
    tryParseHttpRequest true loop.buffered = .ok .incomplete := by
  have delivered : single.read initialInferenceBuf = .data smallRequest (single.advance initialInferenceBuf) :=
    ByteStream.read_head rfl (by decide +kernel)
  have parsed : tryParseHttpRequest true smallRequest = .ok (.complete ⟨"POST".toList, "/v1/chat".toList,
      [("Content-Length".toList, "2".toList)], utf8Encode "hi".toList⟩ smallRequest.length) := by
    decide +kernel
  have sole : SoleRead (.waiting { client := single }) routes :=
    soleRead_of_whole delivered (by decide +kernel) parsed
  obtain ⟨loop, reached, _⟩ := waiting_of_buffered
    (show (interceptionRun true single [routes]).buffered = some [] by decide +kernel)
  exact ⟨loop, reached, interception_waits true single [routes] ⟨sole, trivial⟩ reached⟩

end Example

end OpenShell.Sandbox.Inference
