import OpenShell.Lib.Interleaving

namespace Effects

variable {I : Interface} {σ κ α ι : Type}

def Program.finished : Program I α → Bool
  | .done _ => true
  | .request _ _ => false

def Config.Quiescent (config : Config I σ κ α) : Prop :=
  ∀ thread ∈ config.threads, thread.program.finished = true

/-- Calls that work in the same direction: how they move the state, and when none of them owes a
    further write. -/
structure Phase (σ : Type) extends Discipline σ where
  settled : σ → Prop

namespace Phase

variable (phase : Phase σ) (execute : (op : I.Op) → σ → I.Answer op → σ → Prop)

/-- From any state in which `known` holds, the program keeps the invariant, and a step that leaves
    the state unsettled also leaves the program owing a later one. It owes nothing when it ends. -/
def Settles : Program I α → (σ → Prop) → Bool → Prop
  | .done _, _, owes => owes = false
  | .request op next, known, owes => ∀ state answer after, phase.invariant state → known state →
      execute op state answer after →
      phase.invariant after ∧ phase.evolves state after ∧
        ∃ learnt still, phase.Stable learnt ∧ learnt after ∧
          (owes = true ∨ phase.settled state → still = true ∨ phase.settled after) ∧
          Settles (next answer) learnt still

def Kept (state : σ) (thread : Thread I κ α) (owes : Bool) : Prop :=
  ∃ known, phase.Stable known ∧ known state ∧ phase.Settles execute thread.program known owes

variable {phase execute}

theorem Settles.weaken {known stronger : σ → Prop} {owes : Bool} {program : Program I α}
    (settles : phase.Settles execute program known owes) (implies : ∀ state, stronger state → known state) :
    phase.Settles execute program stronger owes := by
  cases program with
  | done value => exact settles
  | request op next =>
    intro state answer after holds true_now performed
    exact settles state answer after holds (implies state true_now) performed

theorem Settles.after {β : Type} {allowed : I.Op → Prop} {known : σ → Prop} {first : Program I α}
    {next : α → Program I β} (requests : first.Requests allowed)
    (reads : ∀ op state answer after, allowed op → execute op state answer after → after = state)
    (still : ∀ state, phase.evolves state state) (stable : phase.Stable known)
    (rest : ∀ value, phase.Settles execute (next value) known false) :
    phase.Settles execute (first.bind next) known false := by
  induction first with
  | done value => exact rest value
  | request op continues ih =>
    intro state answer after holds true_now performed
    have unchanged := reads op state answer after requests.1 performed
    subst unchanged
    refine ⟨holds, still after, known, false, stable, true_now, ?_, ih answer (requests.2 answer)⟩
    intro before
    exact before

theorem Kept.evolve {state next : σ} {thread : Thread I κ α} {owes : Bool} (holds : phase.invariant state)
    (moved : phase.evolves state next) (kept : phase.Kept execute state thread owes) :
    phase.Kept execute next thread owes := by
  obtain ⟨known, stable, true_now, settles⟩ := kept
  exact ⟨known, stable, stable state next holds true_now moved, settles⟩

theorem Kept.not_finished {state : σ} {thread : Thread I κ α} (kept : phase.Kept execute state thread true) :
    thread.program.finished = false := by
  obtain ⟨known, _, _, settles⟩ := kept
  cases ended : thread.program with
  | done value =>
    rw [ended] at settles
    cases settles
  | request op next => rfl

end Phase

section Phases

variable (kindOf : κ → Option ι) (phase : ι → Phase σ) (agrees : σ → Prop)
  (execute : (op : I.Op) → σ → I.Answer op → σ → Prop)

/-- All calls under way are of one kind and keep its phase; what is unsettled is owed by one of
    them. -/
structure InPhase (config : Config I σ κ α) (kind : ι) : Prop where
  holds : (phase kind).invariant config.state
  threads : ∀ thread ∈ config.threads, thread.program.finished = true ∨
    kindOf thread.call = some kind ∧ ∃ owes, (phase kind).Kept execute config.state thread owes
  debt : (phase kind).settled config.state ∨
    ∃ thread ∈ config.threads, (phase kind).Kept execute config.state thread true

variable {kindOf phase agrees execute} {body : κ → Program I α} {admits : Config I σ κ α → κ → Prop}

theorem InPhase.at_rest
    (closes : ∀ kind state, (phase kind).invariant state → (phase kind).settled state → agrees state)
    {config : Config I σ κ α} {kind : ι} (inPhase : InPhase kindOf phase execute config kind)
    (quiescent : config.Quiescent) : agrees config.state := by
  rcases inPhase.debt with settled | ⟨thread, member, owing⟩
  · exact closes kind config.state inPhase.holds settled
  · have ended := quiescent thread member
    rw [owing.not_finished] at ended
    cases ended

theorem InPhase.start {config : Config I σ κ α} {kind : ι} {call : κ}
    (inPhase : InPhase kindOf phase execute config kind) (ofKind : kindOf call = some kind)
    (settles : (phase kind).Settles execute (body call) (fun _ => True) false) :
    InPhase kindOf phase execute ⟨config.state, config.threads ++ [⟨call, [], body call⟩]⟩ kind := by
  refine ⟨inPhase.holds, ?_, ?_⟩
  · intro thread member
    rcases List.mem_append.mp member with earlier | new
    · exact inPhase.threads thread earlier
    · rw [List.mem_singleton.mp new]
      exact Or.inr ⟨ofKind, false, _, (phase kind).stable_true, True.intro, settles⟩
  · rcases inPhase.debt with settled | ⟨thread, member, owing⟩
    · exact Or.inl settled
    · exact Or.inr ⟨thread, List.mem_append_left _ member, owing⟩

theorem Phase.Kept.perform {kept : Phase σ} {state next : σ} {call : κ} {trace : List (Event I)} {op : I.Op}
    {rest : I.Answer op → Program I α} {answer : I.Answer op} {owes : Bool} (holds : kept.invariant state)
    (keeps : kept.Kept execute state ⟨call, trace, .request op rest⟩ owes) (performed : execute op state answer next) :
    kept.invariant next ∧ kept.evolves state next ∧
      ∃ still, kept.Kept execute next ⟨call, trace ++ [⟨op, answer⟩], rest answer⟩ still ∧
        (owes = true ∨ kept.settled state → still = true ∨ kept.settled next) := by
  obtain ⟨known, _, true_now, settles⟩ := keeps
  obtain ⟨invariant, moved, learnt, still, stable, true_next, pays, continues⟩ :=
    settles state answer next holds true_now performed
  exact ⟨invariant, moved, still, ⟨learnt, stable, true_next, continues⟩, pays⟩

theorem InPhase.advance {state next : σ} {before after : List (Thread I κ α)} {call : κ}
    {trace : List (Event I)} {op : I.Op} {rest : I.Answer op → Program I α} {answer : I.Answer op} {kind : ι}
    (inPhase : InPhase kindOf phase execute ⟨state, before ++ ⟨call, trace, .request op rest⟩ :: after⟩ kind)
    (performed : execute op state answer next) :
    InPhase kindOf phase execute ⟨next, before ++ ⟨call, trace ++ [⟨op, answer⟩], rest answer⟩ :: after⟩
      kind := by
  rcases inPhase.threads ⟨call, trace, .request op rest⟩ (by simp) with ended | ⟨ofKind, someOwes, someKept⟩
  · cases ended
  obtain ⟨invariant, moved, still, kept, pays⟩ := someKept.perform inPhase.holds performed
  refine ⟨invariant, fun thread member => ?_, ?_⟩
  · rcases mem_middle.mp member with self | elsewhere
    · rw [self]
      exact Or.inr ⟨ofKind, still, kept⟩
    · rcases inPhase.threads thread (mem_middle.mpr (Or.inr elsewhere)) with ended | ⟨other, owes, otherKept⟩
      · exact Or.inl ended
      · exact Or.inr ⟨other, owes, otherKept.evolve inPhase.holds moved⟩
  -- Who owes before the step: nobody, this thread or another one.
  · rcases inPhase.debt with settled | ⟨thread, member, owing⟩
    · rcases pays (Or.inr settled) with owes | paid
      · subst owes
        exact Or.inr ⟨_, mem_middle.mpr (Or.inl rfl), kept⟩
      · exact Or.inl paid
    · rcases mem_middle.mp member with self | elsewhere
      · rw [self] at owing
        obtain ⟨_, _, yet, keptYet, paysYet⟩ := owing.perform inPhase.holds performed
        rcases paysYet (Or.inl rfl) with owes | paid
        · subst owes
          exact Or.inr ⟨_, mem_middle.mpr (Or.inl rfl), keptYet⟩
        · exact Or.inl paid
      · exact Or.inr ⟨thread, mem_middle.mpr (Or.inr elsewhere), owing.evolve inPhase.holds moved⟩

def Ordered (kindOf : κ → Option ι) (phase : ι → Phase σ) (agrees : σ → Prop)
    (execute : (op : I.Op) → σ → I.Answer op → σ → Prop) (config : Config I σ κ α) : Prop :=
  (config.Quiescent ∧ agrees config.state) ∨ ∃ kind, InPhase kindOf phase execute config kind

theorem Ordered.at_rest
    (closes : ∀ kind state, (phase kind).invariant state → (phase kind).settled state → agrees state)
    {config : Config I σ κ α} (ordered : Ordered kindOf phase agrees execute config)
    (quiescent : config.Quiescent) : agrees config.state := by
  rcases ordered with quiet | ⟨kind, inPhase⟩
  · exact quiet.2
  · exact inPhase.at_rest closes quiescent

theorem Ordered.inPhase
    (opens : ∀ kind state, agrees state → (phase kind).invariant state ∧ (phase kind).settled state)
    (closes : ∀ kind state, (phase kind).invariant state → (phase kind).settled state → agrees state)
    {config : Config I σ κ α} {kind : ι} (ordered : Ordered kindOf phase agrees execute config)
    (sameKind : ∀ thread ∈ config.threads,
      thread.program.finished = true ∨ kindOf thread.call = some kind) :
    InPhase kindOf phase execute config kind := by
  by_cases resting : config.Quiescent
  · obtain ⟨holds, settled⟩ := opens kind config.state (ordered.at_rest closes resting)
    exact ⟨holds, fun thread member => Or.inl (resting thread member), Or.inl settled⟩
  · rcases ordered with quiet | ⟨other, inPhase⟩
    · exact absurd quiet.1 resting
    · -- Some call is under way; it ties the phase to the kind of the new call.
      have same : other = kind := by
        simp only [Config.Quiescent, not_forall] at resting
        obtain ⟨thread, member, running⟩ := resting
        rcases inPhase.threads thread member with ended | ⟨ofOther, _⟩
        · exact absurd ended running
        · rcases sameKind thread member with ended | ofThis
          · exact absurd ended running
          · rw [ofOther] at ofThis
            exact Option.some.inj ofThis
      rw [← same]
      exact inPhase

/-- When calls of different kinds never overlap, and each kind settles what it changes, the state
    agrees whenever no call is under way. -/
theorem agrees_of_quiescent
    (opens : ∀ kind state, agrees state → (phase kind).invariant state ∧ (phase kind).settled state)
    (closes : ∀ kind state, (phase kind).invariant state → (phase kind).settled state → agrees state)
    (alone : ∀ config call, admits config call → ∃ kind, kindOf call = some kind ∧
      ∀ thread ∈ config.threads, thread.program.finished = true ∨ kindOf thread.call = some kind)
    (settles : ∀ config call kind, admits config call → kindOf call = some kind →
      (phase kind).Settles execute (body call) (fun _ => True) false)
    {initial : σ} (begins : agrees initial) {config : Config I σ κ α}
    (reached : Reachable body execute admits initial config) (quiescent : config.Quiescent) :
    agrees config.state := by
  have ordered : Ordered kindOf phase agrees execute config := by
    clear quiescent
    revert reached
    apply Reachable.invariant
    · exact Or.inl ⟨fun thread member => absurd member List.not_mem_nil, begins⟩
    · intro first second held step
      cases step with
      | start admitted =>
        rename_i call
        obtain ⟨kind, ofKind, sameKind⟩ := alone first call admitted
        have current := Ordered.inPhase opens closes held sameKind
        exact Or.inr ⟨kind, current.start ofKind (settles first call kind admitted ofKind)⟩
      | advance performed =>
        rename_i state next before after call trace op rest answer
        rcases held with quiet | ⟨kind, inPhase⟩
        · have ended := quiet.1 ⟨call, trace, .request op rest⟩ (by simp)
          cases ended
        · exact Or.inr ⟨kind, inPhase.advance performed⟩
  exact ordered.at_rest closes quiescent

end Phases

end Effects
