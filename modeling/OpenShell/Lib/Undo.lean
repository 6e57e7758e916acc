import Mathlib.Data.List.Basic

/-! Commands that are taken back when one of them fails. -/

namespace Undo

variable {σ κ ε : Type} (exec : κ → σ → Except ε σ)

/-- A failure of these is ignored. -/
def cleanup : List κ → σ → σ
  | [], state => state
  | command :: rest, state =>
    match exec command state with
    | .ok next => cleanup rest next
    | .error _ => cleanup rest state

/-- Each command comes with what to do when it fails. -/
def attempt : List (κ × List κ) → σ → Except ε Unit × σ
  | [], state => (.ok (), state)
  | (command, undo) :: rest, state =>
    match exec command state with
    | .ok next => attempt rest next
    | .error problem => (.error problem, cleanup exec undo state)

/-- Where the commands stop, what is undone leads back to the start; where they do not, they lead to the finish. -/
def Brackets (start finish : σ) : List (κ × List κ) → σ → Prop
  | [], state => state = finish
  | (command, undo) :: rest, state =>
    ((exec command state).isOk = false → cleanup exec undo state = start) ∧
      ∀ next, exec command state = .ok next → Brackets start finish rest next

variable {exec}

theorem attempt_eq {start finish state : σ} {commands : List (κ × List κ)}
    (brackets : Brackets exec start finish commands state) :
    (attempt exec commands state).2 = if (attempt exec commands state).1.isOk then finish else start := by
  induction commands generalizing state with
  | nil => exact brackets
  | cons entry rest ih =>
    obtain ⟨command, undo⟩ := entry
    unfold attempt
    cases ran : exec command state with
    | ok next => exact ih (brackets.2 next ran)
    | error problem => exact brackets.1 (by rw [ran]; rfl)

theorem ok_of_attempt {command : κ} {undo : List κ} {rest : List (κ × List κ)} {state : σ}
    (done : (attempt exec ((command, undo) :: rest) state).1.isOk = true) :
    ∃ next, exec command state = .ok next ∧ (attempt exec rest next).1.isOk = true := by
  rw [attempt] at done
  cases ran : exec command state with
  | ok next =>
    rw [ran] at done
    exact ⟨next, rfl, done⟩
  | error problem =>
    rw [ran] at done
    cases done

end Undo
