import Mathlib.Algebra.Ring.Nat
import Mathlib.Data.List.Basic

namespace Streams

inductive ErrorKind where
  | unexpectedEof | connectionReset | brokenPipe | other
deriving DecidableEq

structure IoError where
  kind : ErrorKind
  text : String

/-- What a peer sends over one connection, cut into the pieces in which it arrives. It ends with a
    close or with an error. Offsets into it are machine words. -/
structure ByteStream where
  segments : List (List UInt8)
  ending : Option IoError := none
  nonempty : ∀ segment ∈ segments, segment ≠ []
  bounded : segments.flatten.length < 2 ^ 64

inductive Delivery where
  | data (block : List UInt8) (rest : ByteStream)
  | closed
  | failed (error : IoError)

namespace ByteStream

def bytes (stream : ByteStream) : List UInt8 := stream.segments.flatten

def cut (limit : Nat) : List (List UInt8) → List (List UInt8)
  | [] => []
  | segment :: later => if segment.length ≤ limit then later else segment.drop limit :: later

theorem cut_nonempty {limit : Nat} {segments : List (List UInt8)}
    (nonempty : ∀ segment ∈ segments, segment ≠ []) : ∀ segment ∈ cut limit segments, segment ≠ [] := by
  cases segments with
  | nil => exact nonempty
  | cons first later =>
    intro segment member
    by_cases short : first.length ≤ limit
    · rw [cut, if_pos short] at member
      exact nonempty segment (List.mem_cons_of_mem _ member)
    · rw [cut, if_neg short] at member
      rcases List.mem_cons.mp member with here | behind
      · rw [here]
        intro empty
        rw [List.drop_eq_nil_iff] at empty
        omega
      · exact nonempty segment (List.mem_cons_of_mem _ behind)

theorem flatten_cut (limit : Nat) (first : List UInt8) (later : List (List UInt8)) :
    first.take limit ++ (cut limit (first :: later)).flatten = (first :: later).flatten := by
  by_cases short : first.length ≤ limit
  · rw [cut, if_pos short, List.take_of_length_le short, List.flatten_cons]
  · rw [cut, if_neg short, List.flatten_cons, List.flatten_cons, ← List.append_assoc, List.take_append_drop]

theorem cut_bounded {limit : Nat} {segments : List (List UInt8)} (bounded : segments.flatten.length < 2 ^ 64) :
    (cut limit segments).flatten.length < 2 ^ 64 := by
  cases segments with
  | nil => exact bounded
  | cons first later =>
    rw [← flatten_cut limit, List.length_append] at bounded
    omega

def advance (limit : Nat) (stream : ByteStream) : ByteStream where
  segments := cut limit stream.segments
  ending := stream.ending
  nonempty := cut_nonempty stream.nonempty
  bounded := cut_bounded stream.bounded

def read (limit : Nat) (stream : ByteStream) : Delivery :=
  match stream.segments with
  | segment :: _ => .data (segment.take limit) (stream.advance limit)
  | [] =>
    match stream.ending with
    | none => .closed
    | some error => .failed error

theorem read_data {limit : Nat} {stream rest : ByteStream} {block : List UInt8}
    (delivered : stream.read limit = .data block rest) :
    stream.bytes = block ++ rest.bytes ∧ block.length ≤ limit ∧ (0 < limit → block ≠ []) := by
  unfold read at delivered
  cases pieces : stream.segments with
  | nil =>
    rw [pieces] at delivered
    simp only at delivered
    split at delivered <;> cases delivered
  | cons segment later =>
    rw [pieces] at delivered
    cases delivered
    have filled := stream.nonempty segment (by rw [pieces]; exact List.mem_cons_self)
    refine ⟨?_, List.length_take_le _ _, ?_⟩
    · have after : (stream.advance limit).bytes = (cut limit stream.segments).flatten := rfl
      rw [after, bytes, pieces]
      exact (flatten_cut limit segment later).symm
    · intro positive empty
      rw [List.take_eq_nil_iff] at empty
      rcases empty with zero | none_left
      · omega
      · exact filled none_left

theorem read_head {limit : Nat} {stream : ByteStream} {segment : List UInt8}
    (first : stream.segments.head? = some segment) (fits : segment.length ≤ limit) :
    stream.read limit = .data segment (stream.advance limit) := by
  obtain ⟨later, pieces⟩ := List.head?_eq_some_iff.mp first
  simp only [read, pieces, List.take_of_length_le fits]

theorem read_shorter {limit : Nat} {stream rest : ByteStream} {block : List UInt8} (positive : 0 < limit)
    (delivered : stream.read limit = .data block rest) : rest.bytes.length < stream.bytes.length := by
  obtain ⟨split, _, filled⟩ := read_data delivered
  have length := List.length_pos_iff.mpr (filled positive)
  rw [split, List.length_append]
  omega

theorem bytes_of_end {limit : Nat} {stream : ByteStream}
    (ended : ∀ block rest, stream.read limit ≠ .data block rest) : stream.bytes = [] := by
  unfold bytes
  cases pieces : stream.segments with
  | nil => rfl
  | cons segment later =>
    have delivered : stream.read limit = .data (segment.take limit) (stream.advance limit) := by
      unfold read
      rw [pieces]
    exact absurd delivered (ended _ _)

theorem read_byte {stream : ByteStream} {byte : UInt8} {later : List UInt8} (held : stream.bytes = byte :: later) :
    ∃ rest, stream.read 1 = .data [byte] rest ∧ rest.bytes = later := by
  cases delivered : stream.read 1 with
  | data block rest =>
    obtain ⟨parts, short, filled⟩ := read_data delivered
    obtain ⟨first, rfl⟩ : ∃ first, block = [first] := by
      rw [← List.length_eq_one_iff]
      have positive := List.length_pos_iff.mpr (filled Nat.one_pos)
      omega
    rw [held, List.singleton_append, List.cons.injEq] at parts
    exact ⟨rest, by rw [parts.1], parts.2.symm⟩
  | closed =>
    have empty := @bytes_of_end 1 stream fun block rest => by rw [delivered]; exact Delivery.noConfusion
    rw [held] at empty
    cases empty
  | failed error =>
    have empty := @bytes_of_end 1 stream fun block rest => by rw [delivered]; exact Delivery.noConfusion
    rw [held] at empty
    cases empty

inductive Reads (limit : Nat) : ByteStream → List UInt8 → ByteStream → Prop
  | none {stream : ByteStream} : Reads limit stream [] stream
  | more {stream rest last : ByteStream} {block taken : List UInt8}
      (delivered : stream.read limit = .data block rest) (later : Reads limit rest taken last) :
      Reads limit stream (block ++ taken) last

/-- As `Reads`, with each read made only while fewer than `target` bytes were there. -/
inductive ReadsFor (limit : Nat) : Nat → ByteStream → List UInt8 → ByteStream → Prop
  | none {target : Nat} {stream : ByteStream} : ReadsFor limit target stream [] stream
  | more {target : Nat} {stream rest last : ByteStream} {block taken : List UInt8} (needed : 0 < target)
      (delivered : stream.read limit = .data block rest)
      (later : ReadsFor limit (target - block.length) rest taken last) :
      ReadsFor limit target stream (block ++ taken) last

variable {limit : Nat} {stream middle last : ByteStream} {taken further : List UInt8}

theorem Reads.bytes_eq (reads : Reads limit stream taken last) : stream.bytes = taken ++ last.bytes := by
  induction reads with
  | none => rfl
  | more delivered later ih => rw [(read_data delivered).1, ih, List.append_assoc]

theorem ReadsFor.reads {target : Nat} (reads : ReadsFor limit target stream taken last) :
    Reads limit stream taken last := by
  induction reads with
  | none => exact .none
  | more _ delivered later ih => exact .more delivered ih

theorem ReadsFor.mono {target larger : Nat} (reads : ReadsFor limit target stream taken last)
    (bound : target ≤ larger) : ReadsFor limit larger stream taken last := by
  induction reads generalizing larger with
  | none => exact .none
  | more needed delivered later ih => exact .more (by omega) delivered (ih (by omega))

theorem Reads.trans (first : Reads limit stream taken middle) (second : Reads limit middle further last) :
    Reads limit stream (taken ++ further) last := by
  induction first with
  | none => exact second
  | more delivered later ih =>
    rw [List.append_assoc]
    exact .more delivered (ih second)

theorem ReadsFor.trans {target : Nat} (first : ReadsFor limit target stream taken middle)
    (second : ReadsFor limit (target - taken.length) middle further last) :
    ReadsFor limit target stream (taken ++ further) last := by
  induction first with
  | none => exact second
  | more needed delivered later ih =>
    rw [List.append_assoc]
    rw [List.length_append, Nat.sub_add_eq] at second
    exact .more needed delivered (ih second)

/-- Reads that stop at the target, where whole reads can also end, stop exactly there. -/
theorem ReadsFor.eq_of_boundary {goal : List UInt8} {other : ByteStream}
    (reads : ReadsFor limit goal.length stream taken last) (reached : goal.length ≤ taken.length)
    (boundary : Reads limit stream goal other) : taken = goal := by
  generalize exact_target : goal.length = target at reads
  induction reads generalizing goal with
  | none =>
    rw [List.length_nil, Nat.le_zero] at reached
    exact (List.length_eq_zero_iff.mp reached).symm
  | more needed delivered later ih =>
    cases boundary with
    | none =>
      simp only [List.length_nil] at exact_target
      omega
    | more sameRead rest =>
      rw [delivered] at sameRead
      cases sameRead
      rw [List.length_append] at exact_target
      rw [List.length_append, List.length_append] at reached
      rw [ih (by omega) rest (by omega)]

/-! Reading until the buffer holds what is needed. -/

inductive Outcome (β : Type) where
  | ready (value : β)
  | closed
  | failed (error : IoError)

def readUntil {β : Type} (limit : Nat) (ready : List UInt8 → Option β) :
    Nat → List UInt8 → ByteStream → Outcome β × List UInt8 × ByteStream
  | 0, _, stream => (.closed, [], stream)
  | fuel + 1, buffer, stream =>
    match ready buffer with
    | some value => (.ready value, [], stream)
    | none =>
      match stream.read limit with
      | .data block rest =>
        let (outcome, taken, last) := readUntil limit ready fuel (buffer ++ block) rest
        (outcome, block ++ taken, last)
      | .closed => (.closed, [], stream)
      | .failed error => (.failed error, [], stream)

def gather {β : Type} (limit : Nat) (ready : List UInt8 → Option β) (buffer : List UInt8)
    (stream : ByteStream) : Outcome β × List UInt8 × ByteStream :=
  readUntil limit ready (stream.bytes.length + 1) buffer stream

section Gather

variable {β : Type} {ready : List UInt8 → Option β} {buffer : List UInt8} {value : β} {needed : Nat}

/-- What the buffer must hold is there from `needed` bytes on and not before. -/
structure ReadyAt (ready : List UInt8 → Option β) (total : List UInt8) (needed : Nat) (value : β) : Prop where
  early : ∀ held, held <+: total → held.length < needed → ready held = none
  late : ∀ held, held <+: total → needed ≤ held.length → ready held = some value

theorem readUntil_ready (positive : 0 < limit) {fuel : Nat} (enough : stream.bytes.length < fuel)
    (at_needed : ReadyAt ready (buffer ++ stream.bytes) needed value)
    (present : needed ≤ (buffer ++ stream.bytes).length) :
    ∃ taken last, readUntil limit ready fuel buffer stream = (.ready value, taken, last) ∧
      ReadsFor limit (needed - buffer.length) stream taken last ∧ needed ≤ (buffer ++ taken).length := by
  induction fuel generalizing buffer stream with
  | zero => omega
  | succ fuel ih =>
    by_cases held : needed ≤ buffer.length
    · have found := at_needed.late buffer (List.prefix_append _ _) held
      refine ⟨[], stream, ?_, .none, ?_⟩
      · simp only [readUntil, found]
      · rw [List.append_nil]
        exact held
    · have missing := at_needed.early buffer (List.prefix_append _ _) (by omega)
      cases delivered : stream.read limit with
      | data block rest =>
        have whole := (read_data delivered).1
        have shorter := read_shorter positive delivered
        rw [whole, ← List.append_assoc] at at_needed present
        obtain ⟨taken, last, ran, reads, reached⟩ := ih (by omega) at_needed present
        refine ⟨block ++ taken, last, ?_, ?_, ?_⟩
        · simp only [readUntil, missing, delivered, ran]
        · rw [List.length_append, Nat.sub_add_eq] at reads
          exact .more (by omega) delivered reads
        · rw [← List.append_assoc]
          exact reached
      | closed =>
        have empty := bytes_of_end (fun block rest => by rw [delivered]; exact Delivery.noConfusion)
        rw [empty, List.append_nil] at present
        omega
      | failed error =>
        have empty := bytes_of_end (fun block rest => by rw [delivered]; exact Delivery.noConfusion)
        rw [empty, List.append_nil] at present
        omega

theorem gather_ready (positive : 0 < limit) (at_needed : ReadyAt ready (buffer ++ stream.bytes) needed value)
    (present : needed ≤ (buffer ++ stream.bytes).length) :
    ∃ taken last, gather limit ready buffer stream = (.ready value, taken, last) ∧
      ReadsFor limit (needed - buffer.length) stream taken last ∧ needed ≤ (buffer ++ taken).length :=
  readUntil_ready positive (Nat.lt_succ_self _) at_needed present

theorem readUntil_reads (limit : Nat) (ready : List UInt8 → Option β) (fuel : Nat) (buffer : List UInt8)
    (stream : ByteStream) :
    Reads limit stream (readUntil limit ready fuel buffer stream).2.1
      (readUntil limit ready fuel buffer stream).2.2 := by
  induction fuel generalizing buffer stream with
  | zero => exact .none
  | succ fuel ih =>
    unfold readUntil
    split
    · exact .none
    · split
      · rename_i delivered
        exact .more delivered (ih _ _)
      · exact .none
      · exact .none

theorem gather_reads {outcome : Outcome β} (ran : gather limit ready buffer stream = (outcome, taken, last)) :
    Reads limit stream taken last := by
  have reads := readUntil_reads limit ready (stream.bytes.length + 1) buffer stream
  rw [gather] at ran
  rw [ran] at reads
  exact reads

theorem readUntil_found {fuel : Nat} {last : ByteStream}
    (ran : readUntil limit ready fuel buffer stream = (.ready value, taken, last)) :
    ready (buffer ++ taken) = some value := by
  induction fuel generalizing buffer stream taken with
  | zero => cases ran
  | succ fuel ih =>
    unfold readUntil at ran
    split at ran
    · rename_i found
      cases ran
      rw [List.append_nil]
      exact found
    · split at ran
      · rename_i block rest delivered
        cases more : readUntil limit ready fuel (buffer ++ block) rest with
        | mk outcome tail =>
          rw [more] at ran
          cases ran
          rw [← List.append_assoc]
          exact ih more
      · cases ran
      · cases ran

theorem gather_found {last : ByteStream} (ran : gather limit ready buffer stream = (.ready value, taken, last)) :
    ready (buffer ++ taken) = some value := readUntil_found ran

end Gather

end ByteStream

end Streams
