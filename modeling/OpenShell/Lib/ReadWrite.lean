import OpenShell.Lib.Machine

namespace ReadWrite

/-- Calls on one record. A call reads the record and then writes it back whole, whatever it has become in the
    meantime, or it removes the record unread. After its write a call may remove the record too. -/
structure Protocol (κ ρ : Type) where
  removesUnread : κ → Bool
  plan : κ → Option ρ → Option ρ
  removesWritten : κ → Bool

/-- How far a call has come. `since` counts the changes of the record before its read. -/
inductive Stage (ρ : Type) where
  | fresh
  | planned (since : Nat) (value : ρ)
  | removing
  | returned (wrote : Bool)

/-- A change of the record: who made it, how many changes there had been when its call began and when the call read
    the record, and the record before and after. -/
structure Change (κ ρ : Type) where
  caller : Nat
  call : κ
  began : Nat
  since : Nat
  before : Option ρ
  after : Option ρ

structure Running (κ ρ : Type) where
  call : κ
  began : Nat
  stage : Stage ρ

/-- The record, the history of its changes, and the calls in the order in which they began. -/
structure State (κ ρ : Type) where
  record : Option ρ
  log : List (Change κ ρ) := []
  calls : List (Running κ ρ) := []

/-- A call begins, takes its next store operation, or returns because that operation or a check before it fails. -/
inductive Event (κ : Type) where
  | start (call : κ)
  | advance (position : Nat)
  | fail (position : Nat)

variable {κ ρ : Type} (protocol : Protocol κ ρ)

/-- A store operation that changes the record. -/
def State.change (state : State κ ρ) (caller : Nat) (call : κ) (began since : Nat) (after : Option ρ)
    (stage : Stage ρ) : State κ ρ where
  record := after
  log := state.log ++ [⟨caller, call, began, since, state.record, after⟩]
  calls := state.calls.set caller ⟨call, began, stage⟩

def State.move (state : State κ ρ) (caller : Nat) (call : κ) (began : Nat) (stage : Stage ρ) : State κ ρ :=
  { state with calls := state.calls.set caller ⟨call, began, stage⟩ }

def advance (state : State κ ρ) (caller : Nat) : State κ ρ :=
  match state.calls[caller]? with
  | none => state
  | some ⟨call, began, .fresh⟩ =>
    if protocol.removesUnread call then state.change caller call began state.log.length none (.returned false)
    else
      match protocol.plan call state.record with
      | none => state.move caller call began (.returned false)
      | some value => state.move caller call began (.planned state.log.length value)
  | some ⟨call, began, .planned since value⟩ =>
    state.change caller call began since (some value)
      (if protocol.removesWritten call then .removing else .returned true)
  | some ⟨call, began, .removing⟩ => state.change caller call began state.log.length none (.returned true)
  | some ⟨_, _, .returned _⟩ => state

def fail (state : State κ ρ) (caller : Nat) : State κ ρ :=
  match state.calls[caller]? with
  | none => state
  | some ⟨call, began, .fresh⟩ => state.move caller call began (.returned false)
  | some ⟨call, began, .planned _ _⟩ => state.move caller call began (.returned false)
  | some ⟨call, began, .removing⟩ => state.move caller call began (.returned true)
  | some ⟨_, _, .returned _⟩ => state

def step (state : State κ ρ) : Event κ → State κ ρ
  | .start call => { state with calls := state.calls ++ [⟨call, state.log.length, .fresh⟩] }
  | .advance caller => advance protocol state caller
  | .fail caller => fail state caller

/-- A write finds the record as its call has read it: no other call has changed it since. -/
def Undisturbed (state : State κ ρ) : Event κ → Prop
  | .start _ => True
  | .fail _ => True
  | .advance caller => ∀ call began since value,
      state.calls[caller]? = some ⟨call, began, .planned since value⟩ → since = state.log.length

/-- How many changes the call has seen that would write next. -/
def Stage.since : Stage ρ → Option Nat
  | .planned since _ => some since
  | .fresh | .removing | .returned _ => none

instance (state : State κ ρ) : (event : Event κ) → Decidable (Undisturbed state event)
  | .start _ => .isTrue trivial
  | .fail _ => .isTrue trivial
  | .advance caller => decidable_of_iff
      (∀ since ∈ (state.calls[caller]?).bind fun running => running.stage.since, since = state.log.length) (by
    constructor
    · intro seen call began since value found
      exact seen since (by rw [found]; rfl)
    · intro seen since stamped
      obtain ⟨⟨call, began, stage⟩, found, planned⟩ := Option.mem_bind_iff.mp stamped
      cases stage with
      | planned stamp value =>
        cases planned
        exact seen call began since value found
      | fresh => cases planned
      | removing => cases planned
      | returned wrote => cases planned)

section Serial

variable (guard : κ → Option ρ → List (Change κ ρ) → Prop)

/-- What a call reads is sound in view of the changes that came since it began. -/
def Informed (state : State κ ρ) : Event κ → Prop
  | .start _ => True
  | .fail _ => True
  | .advance caller => ∀ call began, state.calls[caller]? = some ⟨call, began, .fresh⟩ →
      guard call state.record (state.log.drop began)

/-- A history in which every write works on the record as it stands. -/
inductive Serial (initial : Option ρ) : List (Change κ ρ) → Option ρ → Prop
  | nil : Serial initial [] initial
  | write {log : List (Change κ ρ)} {before : Option ρ} {caller began : Nat} {call : κ} {value : ρ}
      (prior : Serial initial log before) (planned : protocol.plan call before = some value)
      (informed : guard call before (log.drop began)) :
      Serial initial (log ++ [⟨caller, call, began, log.length, before, some value⟩]) (some value)
  | remove {log : List (Change κ ρ)} {before : Option ρ} {caller began : Nat} {call : κ}
      (prior : Serial initial log before) :
      Serial initial (log ++ [⟨caller, call, began, log.length, before, none⟩]) none

/-- The history is serial, and a call with nothing changed since its read would plan the same again. -/
structure Sound (initial : Option ρ) (state : State κ ρ) : Prop where
  serial : Serial protocol guard initial state.log state.record
  seen : ∀ (caller : Nat) (call : κ) (began since : Nat) (value : ρ),
    state.calls[caller]? = some ⟨call, began, .planned since value⟩ → since ≤ state.log.length ∧
      (since = state.log.length →
        protocol.plan call state.record = some value ∧ guard call state.record (state.log.drop began))

variable {protocol guard} {initial : Option ρ} {state : State κ ρ}

namespace Sound

theorem change (sound : Sound protocol guard initial state) {caller : Nat} {call : κ} {began since : Nat}
    {after : Option ρ} {stage : Stage ρ} (unplanned : ∀ since value, stage ≠ .planned since value)
    (serial : Serial protocol guard initial
      (state.log ++ [⟨caller, call, began, since, state.record, after⟩]) after) :
    Sound protocol guard initial (state.change caller call began since after stage) := by
  refine ⟨serial, ?_⟩
  intro other otherCall otherBegan stamp value found
  simp only [State.change, List.getElem?_set] at found
  split at found
  · split at found
    · cases found
      exact absurd rfl (unplanned stamp value)
    · cases found
  · have early := (sound.seen other otherCall otherBegan stamp value found).1
    rw [State.change, List.length_append, List.length_singleton]
    exact ⟨by omega, fun now => absurd now (by omega)⟩

theorem move (sound : Sound protocol guard initial state) {caller : Nat} {call : κ} {began : Nat} {stage : Stage ρ}
    (fresh : ∀ since value, stage = .planned since value → since = state.log.length ∧
      protocol.plan call state.record = some value ∧ guard call state.record (state.log.drop began)) :
    Sound protocol guard initial (state.move caller call began stage) := by
  refine ⟨sound.serial, ?_⟩
  intro other otherCall otherBegan since value found
  simp only [State.move, List.getElem?_set] at found
  split at found
  · split at found
    · cases found
      obtain ⟨rfl, planned⟩ := fresh since value rfl
      exact ⟨Nat.le_refl _, fun _ => planned⟩
    · cases found
  · exact sound.seen other otherCall otherBegan since value found

theorem start (sound : Sound protocol guard initial state) (call : κ) :
    Sound protocol guard initial { state with calls := state.calls ++ [⟨call, state.log.length, .fresh⟩] } := by
  refine ⟨sound.serial, ?_⟩
  intro caller other began since value found
  simp only [List.getElem?_append] at found
  split at found
  · exact sound.seen caller other began since value found
  · rw [List.getElem?_singleton] at found
    split at found
    · cases found
    · cases found

theorem advance (sound : Sound protocol guard initial state) {caller : Nat}
    (undisturbed : Undisturbed state (.advance caller)) (informed : Informed guard state (.advance caller)) :
    Sound protocol guard initial (advance protocol state caller) := by
  unfold ReadWrite.advance
  split
  · exact sound
  · rename_i call began found
    split
    · apply sound.change (by simp)
      exact Serial.remove sound.serial
    · split
      · exact sound.move (by simp)
      · rename_i value planned
        apply sound.move
        intro since other same
        cases same
        exact ⟨rfl, planned, informed call began found⟩
  · rename_i call began since value found
    obtain rfl := undisturbed call began since value found
    obtain ⟨planned, informed⟩ := (sound.seen caller call began _ value found).2 rfl
    apply sound.change
    · intro since value
      split <;> simp
    · exact Serial.write sound.serial planned informed
  · apply sound.change (by simp)
    exact Serial.remove sound.serial
  · exact sound

theorem fail (sound : Sound protocol guard initial state) (caller : Nat) :
    Sound protocol guard initial (fail state caller) := by
  unfold ReadWrite.fail
  split
  · exact sound
  · exact sound.move (by simp)
  · exact sound.move (by simp)
  · exact sound.move (by simp)
  · exact sound

theorem step (sound : Sound protocol guard initial state) {event : Event κ}
    (undisturbed : Undisturbed state event) (informed : Informed guard state event) :
    Sound protocol guard initial (step protocol state event) := by
  cases event with
  | start call => exact sound.start call
  | advance caller => exact sound.advance undisturbed informed
  | fail caller => exact sound.fail caller

end Sound

/-- When no other change comes between a call's read and its write, the history is serial. -/
theorem sound_run {events : List (Event κ)}
    (along : Machine.Along (step protocol) (fun state event => Undisturbed state event ∧ Informed guard state event)
      ⟨initial, [], []⟩ events) :
    Sound protocol guard initial (Machine.run (step protocol) ⟨initial, [], []⟩ events) := by
  apply along.invariant (Sound protocol guard initial)
  · intro state event _ sound condition
    exact sound.step condition.1 condition.2
  · exact ⟨.nil, by simp⟩

/-- The same for calls that may begin at any time. -/
theorem sound_of_undisturbed {events : List (Event κ)}
    (along : Machine.Along (step protocol) Undisturbed ⟨initial, [], []⟩ events) :
    Sound protocol (fun _ _ _ => True) initial (Machine.run (step protocol) ⟨initial, [], []⟩ events) := by
  apply sound_run
  apply along.imp
  intro state event undisturbed
  refine ⟨undisturbed, ?_⟩
  cases event with
  | start call => trivial
  | advance caller => exact fun _ _ _ => trivial
  | fail caller => trivial

end Serial

/-! Which call has written what. -/

def Stage.wrote : Stage ρ → Bool
  | .fresh => false
  | .planned _ _ => false
  | .removing => true
  | .returned wrote => wrote

/-- The calls that have written are those of the written values in the history, and each of them wrote once. -/
structure Traced (state : State κ ρ) : Prop where
  written : ∀ (caller : Nat) (call : κ) (began : Nat) (stage : Stage ρ),
    state.calls[caller]? = some ⟨call, began, stage⟩ → stage.wrote = true →
    ∃ change ∈ state.log, change.caller = caller ∧ change.call = call ∧ change.after.isSome
  owned : ∀ change ∈ state.log, change.after.isSome →
    ∃ began stage, state.calls[change.caller]? = some ⟨change.call, began, stage⟩ ∧ stage.wrote = true
  once : state.log.Pairwise fun first second =>
    first.after.isSome → second.after.isSome → first.caller ≠ second.caller
  removes : ∀ (caller : Nat) (call : κ) (began : Nat), state.calls[caller]? = some ⟨call, began, .removing⟩ →
    protocol.removesWritten call = true

namespace Traced

variable {protocol} {state : State κ ρ} {caller : Nat} {call : κ} {began : Nat} {old stage : Stage ρ}

theorem removes_set (traced : Traced protocol state) (ends : stage = .removing → protocol.removesWritten call = true)
    (other : Nat) (otherCall : κ) (otherBegan : Nat)
    (held : (state.calls.set caller ⟨call, began, stage⟩)[other]? = some ⟨otherCall, otherBegan, .removing⟩) :
    protocol.removesWritten otherCall = true := by
  rw [List.getElem?_set] at held
  split at held
  · split at held
    · cases held
      exact ends rfl
    · cases held
  · exact traced.removes other otherCall otherBegan held

theorem move (traced : Traced protocol state) (found : state.calls[caller]? = some ⟨call, began, old⟩)
    (ends : stage ≠ .removing) (same : stage.wrote = old.wrote) : Traced protocol (state.move caller call began stage) := by
  have bound : caller < state.calls.length := (List.getElem?_eq_some_iff.mp found).1
  refine ⟨?_, ?_, traced.once, traced.removes_set fun removing => absurd removing ends⟩
  · intro other otherCall otherBegan later held wrote
    by_cases here : caller = other
    · subst here
      rw [State.move, List.getElem?_set_self bound] at held
      cases held
      exact traced.written caller call began old found (same ▸ wrote)
    · rw [State.move, List.getElem?_set_ne here] at held
      exact traced.written other otherCall otherBegan later held wrote
  · intro change member some
    obtain ⟨start, later, held, wrote⟩ := traced.owned change member some
    by_cases here : caller = change.caller
    · rw [← here, found] at held
      cases held
      exact ⟨began, stage, by rw [State.move, ← here, List.getElem?_set_self bound], same.trans wrote⟩
    · exact ⟨start, later, by rw [State.move, List.getElem?_set_ne here]; exact held, wrote⟩

/-- A removal leaves the traces as they are. -/
theorem remove (traced : Traced protocol state) (found : state.calls[caller]? = some ⟨call, began, old⟩)
    (ends : stage ≠ .removing) (same : stage.wrote = old.wrote) {since : Nat} :
    Traced protocol (state.change caller call began since none stage) := by
  have moved := traced.move found ends same
  refine ⟨?_, ?_, ?_, moved.removes⟩
  · intro other otherCall otherBegan later held wrote
    obtain ⟨change, member, rest⟩ := moved.written other otherCall otherBegan later held wrote
    exact ⟨change, List.mem_append_left _ member, rest⟩
  · intro change member some
    rcases List.mem_append.mp member with old | new
    · exact moved.owned change old some
    · cases List.mem_singleton.mp new
      cases some
  · apply List.pairwise_append.mpr
    refine ⟨traced.once, List.pairwise_singleton _ _, ?_⟩
    intro first _ second new _ some
    cases List.mem_singleton.mp new
    cases some

theorem write (traced : Traced protocol state) (found : state.calls[caller]? = some ⟨call, began, old⟩) (unwritten : old.wrote = false)
    (wrote : stage.wrote = true) (ends : stage = .removing → protocol.removesWritten call = true) {since : Nat}
    {value : ρ} : Traced protocol (state.change caller call began since (some value) stage) := by
  have bound : caller < state.calls.length := (List.getElem?_eq_some_iff.mp found).1
  have apart : ∀ change ∈ state.log, change.after.isSome → caller ≠ change.caller := by
    intro change member some same
    obtain ⟨start, later, held, wrote⟩ := traced.owned change member some
    rw [← same, found] at held
    cases held
    rw [unwritten] at wrote
    cases wrote
  refine ⟨?_, ?_, ?_, traced.removes_set ends⟩
  · intro other otherCall otherBegan later held wrote
    by_cases here : caller = other
    · subst here
      rw [State.change, List.getElem?_set_self bound] at held
      cases held
      exact ⟨_, List.mem_append_right _ (List.mem_singleton_self _), rfl, rfl, rfl⟩
    · rw [State.change, List.getElem?_set_ne here] at held
      obtain ⟨change, member, rest⟩ := traced.written other otherCall otherBegan later held wrote
      exact ⟨change, List.mem_append_left _ member, rest⟩
  · intro change member some
    rcases List.mem_append.mp member with old | new
    · obtain ⟨start, later, held, wrote⟩ := traced.owned change old some
      exact ⟨start, later, by rw [State.change, List.getElem?_set_ne (apart change old some)]; exact held, wrote⟩
    · cases List.mem_singleton.mp new
      exact ⟨began, stage, by rw [State.change, List.getElem?_set_self bound], wrote⟩
  · apply List.pairwise_append.mpr
    refine ⟨traced.once, List.pairwise_singleton _ _, ?_⟩
    intro first old second new some _
    cases List.mem_singleton.mp new
    exact (apart first old some).symm

theorem start (traced : Traced protocol state) (call : κ) :
    Traced protocol { state with calls := state.calls ++ [⟨call, state.log.length, .fresh⟩] } := by
  have earlier : ∀ (caller : Nat) (running : Running κ ρ),
      (state.calls ++ [⟨call, state.log.length, .fresh⟩])[caller]? = some running → running.stage ≠ .fresh →
        state.calls[caller]? = some running := by
    intro caller running held started
    rw [List.getElem?_append] at held
    split at held
    · exact held
    · rw [List.getElem?_singleton] at held
      split at held
      · cases held
        exact absurd rfl started
      · cases held
  refine ⟨?_, ?_, traced.once, ?_⟩
  · intro caller other began stage held wrote
    refine traced.written caller other began stage (earlier caller _ held ?_) wrote
    rintro rfl
    cases wrote
  · intro change member some
    obtain ⟨began, stage, held, wrote⟩ := traced.owned change member some
    exact ⟨began, stage, List.getElem?_append_left (List.getElem?_eq_some_iff.mp held).1 ▸ held, wrote⟩
  · intro caller other began held
    exact traced.removes caller other began (earlier caller _ held (by simp))

theorem advance (traced : Traced protocol state) (caller : Nat) : Traced protocol (advance protocol state caller) := by
  unfold ReadWrite.advance
  split
  · exact traced
  · rename_i call began found
    split
    · apply traced.remove found (by simp)
      rfl
    · split
      · exact traced.move found (by simp) rfl
      · exact traced.move found (by simp) rfl
  · rename_i call began since value found
    by_cases removes : protocol.removesWritten call = true
    · rw [if_pos removes]
      exact traced.write found rfl rfl fun _ => removes
    · rw [if_neg removes]
      exact traced.write found rfl rfl (by simp)
  · rename_i call began found
    apply traced.remove found (by simp)
    rfl
  · exact traced

theorem fail (traced : Traced protocol state) (caller : Nat) : Traced protocol (fail state caller) := by
  unfold ReadWrite.fail
  split
  · exact traced
  · rename_i call began found
    exact traced.move found (by simp) rfl
  · rename_i call began since value found
    exact traced.move found (by simp) rfl
  · rename_i call began found
    exact traced.move found (by simp) rfl
  · exact traced

theorem step (traced : Traced protocol state) (event : Event κ) : Traced protocol (step protocol state event) := by
  cases event with
  | start call => exact traced.start call
  | advance caller => exact traced.advance caller
  | fail caller => exact traced.fail caller

end Traced

theorem traced_run {protocol : Protocol κ ρ} {initial : Option ρ} (events : List (Event κ)) :
    Traced protocol (Machine.run (step protocol) ⟨initial, [], []⟩ events) := by
  apply Machine.run_invariant
  · intro state event _ traced
    exact traced.step event
  · exact ⟨by simp, by simp, .nil, by simp⟩

end ReadWrite
