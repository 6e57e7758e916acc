import OpenShell.Lib.Program

namespace Effects

/-! Execution in which some of the operations fail. A failed operation answers with its problem and
    leaves the state as it is. -/

/-- Which of the operations to come fail, counted from the next one. -/
abbrev Faults (ε : Type) : Type := Nat → Option ε

namespace Faults

variable {I : Interface} {ε ε' σ α β : Type} (failure : ε → (op : I.Op) → I.Answer op)
  (exec : (op : I.Op) → σ → I.Answer op × σ)

def later (count : Nat) (faults : Faults ε) : Faults ε := fun step => faults (step + count)

/-- Nothing fails among the next operations. -/
def Clear (faults : Faults ε) (count : Nat) : Prop := ∀ step < count, faults step = none

def execute (op : I.Op) (state : Faults ε × σ) : I.Answer op × (Faults ε × σ) :=
  match state.1 0 with
  | some problem => (failure problem op, (state.1.later 1, state.2))
  | none => ((exec op state.2).1, (state.1.later 1, (exec op state.2).2))

variable {failure exec} {faults : Faults ε} {state : σ} {op : I.Op}

theorem later_later (first second : Nat) : (faults.later first).later second = faults.later (second + first) := by
  funext step
  show faults (step + second + first) = faults (step + (second + first))
  rw [Nat.add_assoc]

theorem clear_zero : faults.Clear 0 := fun step before => absurd before (Nat.not_lt_zero step)

theorem Clear.succ {count : Nat} (clear : faults.Clear count) (next : faults count = none) :
    faults.Clear (count + 1) := by
  intro step before
  rcases Nat.lt_succ_iff_lt_or_eq.mp before with earlier | rfl
  · exact clear step earlier
  · exact next

theorem execute_fault {problem : ε} (fault : faults 0 = some problem) :
    execute failure exec op (faults, state) = (failure problem op, (faults.later 1, state)) := by
  simp only [execute, fault]

theorem execute_clear (clear : faults 0 = none) :
    execute failure exec op (faults, state) =
      ((exec op state).1, (faults.later 1, (exec op state).2)) := by
  simp only [execute, clear]

end Faults

end Effects
