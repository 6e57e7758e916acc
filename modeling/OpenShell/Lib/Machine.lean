import Mathlib.Data.List.Basic

namespace Machine

variable {σ ε : Type} (step : σ → ε → σ)

def run (state : σ) (events : List ε) : σ := events.foldl step state

/-- Every event meets the condition in the state that it finds. -/
def Along (condition : σ → ε → Prop) : σ → List ε → Prop
  | _, [] => True
  | state, event :: rest => condition state event ∧ Along condition (step state event) rest

instance decidableAlong (condition : σ → ε → Prop) [decide : ∀ state event, Decidable (condition state event)] :
    (state : σ) → (events : List ε) → Decidable (Along step condition state events)
  | _, [] => .isTrue trivial
  | state, event :: rest =>
    @instDecidableAnd _ _ (decide state event) (decidableAlong condition (step state event) rest)

/-- Some event meets the condition in the state that it finds. -/
def Met (condition : σ → ε → Prop) : σ → List ε → Prop
  | _, [] => False
  | state, event :: rest => condition state event ∨ Met condition (step state event) rest

instance decidableMet (condition : σ → ε → Prop) [decide : ∀ state event, Decidable (condition state event)] :
    (state : σ) → (events : List ε) → Decidable (Met step condition state events)
  | _, [] => .isFalse id
  | state, event :: rest =>
    @instDecidableOr _ _ (decide state event) (decidableMet condition (step state event) rest)

variable {step}

@[simp] theorem run_nil (state : σ) : run step state [] = state := rfl

theorem run_cons (state : σ) (event : ε) (rest : List ε) :
    run step state (event :: rest) = run step (step state event) rest := rfl

theorem run_append (state : σ) (before after : List ε) :
    run step state (before ++ after) = run step (run step state before) after :=
  List.foldl_append

theorem along_append {condition : σ → ε → Prop} {state : σ} {before after : List ε} :
    Along step condition state (before ++ after) ↔
      Along step condition state before ∧ Along step condition (run step state before) after := by
  induction before generalizing state with
  | nil => exact (iff_of_eq (true_and _)).symm
  | cons event rest ih =>
    rw [List.cons_append, Along, Along, ih, run_cons, and_assoc]

theorem met_append {condition : σ → ε → Prop} {state : σ} {before after : List ε} :
    Met step condition state (before ++ after) ↔
      Met step condition state before ∨ Met step condition (run step state before) after := by
  induction before generalizing state with
  | nil => exact (iff_of_eq (false_or _)).symm
  | cons event rest ih =>
    rw [List.cons_append, Met, Met, ih, run_cons, or_assoc]

theorem met_snoc {condition : σ → ε → Prop} {state : σ} {before : List ε} {event : ε} :
    Met step condition state (before ++ [event]) ↔
      Met step condition state before ∨ condition (run step state before) event := by
  rw [met_append, Met, Met, or_false]

theorem Along.imp {condition weaker : σ → ε → Prop} (implies : ∀ state event, condition state event → weaker state event)
    {state : σ} {events : List ε} (along : Along step condition state events) : Along step weaker state events := by
  induction events generalizing state with
  | nil => trivial
  | cons event rest ih => exact ⟨implies state event along.1, ih along.2⟩

/-- What one step keeps, where it meets the condition, a whole run keeps. -/
theorem Along.invariant {condition : σ → ε → Prop} (property : σ → Prop) {state : σ} {events : List ε}
    (kept : ∀ state, ∀ event ∈ events, property state → condition state event → property (step state event))
    (along : Along step condition state events) (base : property state) : property (run step state events) := by
  induction events generalizing state with
  | nil => exact base
  | cons event rest ih =>
    refine ih ?_ along.2 (kept state event List.mem_cons_self base along.1)
    intro state event member
    exact kept state event (List.mem_cons_of_mem _ member)

theorem run_invariant (property : σ → Prop) {state : σ} {events : List ε}
    (kept : ∀ state, ∀ event ∈ events, property state → property (step state event)) (base : property state) :
    property (run step state events) := by
  induction events generalizing state with
  | nil => exact base
  | cons event rest ih =>
    refine ih ?_ (kept state event List.mem_cons_self base)
    intro state event member
    exact kept state event (List.mem_cons_of_mem _ member)

/-! Machines that hold items in a line: each event brings some, and a step may lose some, but neither repeats nor
reorders them. -/

section Flow

variable {α : Type} {held : σ → List α} {brought : ε → List α}

theorem flow_sublist (each : ∀ state event, (held (step state event)).Sublist (held state ++ brought event))
    (state : σ) (events : List ε) : (held (run step state events)).Sublist (held state ++ events.flatMap brought) := by
  induction events generalizing state with
  | nil => simp
  | cons event rest ih =>
    rw [run_cons, List.flatMap_cons, ← List.append_assoc]
    exact (ih (step state event)).trans ((each state event).append_right _)

/-- Nothing is lost over a run exactly when no step loses anything. -/
theorem flow_eq_iff {loses : σ → ε → Prop}
    (each : ∀ state event, (held (step state event)).Sublist (held state ++ brought event))
    (exact : ∀ state event, held (step state event) = held state ++ brought event ↔ ¬loses state event)
    (state : σ) (events : List ε) :
    held (run step state events) = held state ++ events.flatMap brought ↔
      Along step (fun state event => ¬loses state event) state events := by
  induction events generalizing state with
  | nil => simp [Along]
  | cons event rest ih =>
    rw [run_cons, List.flatMap_cons, ← List.append_assoc, Along, ← ih, ← exact]
    constructor
    · intro whole
      have after := flow_sublist each (step state event) rest
      have before := (each state event).append_right (rest.flatMap brought)
      have same := before.antisymm (whole ▸ after)
      exact ⟨List.append_cancel_right same, by rw [whole, same]⟩
    · intro ⟨first, later⟩
      rw [later, first]

end Flow

end Machine
