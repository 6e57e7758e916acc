import Mathlib.Logic.Basic

namespace Effects

structure Interface where
  Op : Type
  Answer : Op → Type

/-- A program over an interface: it finishes with a value, or requests one operation and
    continues with the answer. Nothing happens between two requests. -/
inductive Program (I : Interface) (α : Type) where
  | done (value : α)
  | request (op : I.Op) (next : I.Answer op → Program I α)

namespace Program

variable {I : Interface} {σ α β : Type}

def bind : Program I α → (α → Program I β) → Program I β
  | .done value, next => next value
  | .request op rest, next => .request op (fun answer => (rest answer).bind next)

def run (exec : (op : I.Op) → σ → I.Answer op × σ) : Program I α → σ → α × σ
  | .done value, state => (value, state)
  | .request op next, state => (next (exec op state).1).run exec (exec op state).2

variable (exec : (op : I.Op) → σ → I.Answer op × σ)

@[simp] theorem run_done (value : α) (state : σ) :
    (Program.done value : Program I α).run exec state = (value, state) := rfl

@[simp] theorem run_request (op : I.Op) (next : I.Answer op → Program I α) (state : σ) :
    (Program.request op next).run exec state =
      (next (exec op state).1).run exec (exec op state).2 := rfl

theorem run_bind (program : Program I α) (next : α → Program I β) (state : σ) :
    (program.bind next).run exec state =
      (next (program.run exec state).1).run exec (program.run exec state).2 := by
  induction program generalizing state with
  | done value => rfl
  | request op rest ih => exact ih (exec op state).1 (exec op state).2

theorem bind_assoc {γ : Type} (program : Program I α) (next : α → Program I β) (last : β → Program I γ) :
    (program.bind next).bind last = program.bind fun value => (next value).bind last := by
  induction program with
  | done value => rfl
  | request op rest ih =>
    simp only [bind]
    congr 1
    funext answer
    exact ih answer

def Requests (allowed : I.Op → Prop) : Program I α → Prop
  | .done _ => True
  | .request op next => allowed op ∧ ∀ answer, (next answer).Requests allowed

theorem Requests.bind {allowed : I.Op → Prop} {program : Program I α} {next : α → Program I β}
    (first : program.Requests allowed) (rest : ∀ value, (next value).Requests allowed) :
    (program.bind next).Requests allowed := by
  induction program with
  | done value => exact rest value
  | request op after ih => exact ⟨first.1, fun answer => ih answer (first.2 answer)⟩

theorem Requests.run_preserves {allowed : I.Op → Prop} {invariant : σ → Prop} {program : Program I α}
    (requests : program.Requests allowed)
    (keeps : ∀ op state, allowed op → invariant state → invariant (exec op state).2) {state : σ}
    (holds : invariant state) : invariant (program.run exec state).2 := by
  induction program generalizing state with
  | done value => exact holds
  | request op next ih => exact ih (exec op state).1 (requests.2 _) (keeps op state requests.1 holds)

end Program

/-- A program that may stop early with an error: later requests are not made. -/
def Fallible (I : Interface) (ε α : Type) : Type := Program I (Except ε α)

namespace Fallible

variable {I : Interface} {ε σ α β : Type}

def bind (first : Fallible I ε α) (next : α → Fallible I ε β) : Fallible I ε β :=
  Program.bind first fun
    | .ok value => next value
    | .error problem => .done (.error problem)

instance : Monad (Fallible I ε) where
  pure value := Program.done (.ok value)
  bind := Fallible.bind

def fail (problem : ε) : Fallible I ε α := Program.done (.error problem)

def ensure (condition : Bool) (problem : ε) : Fallible I ε Unit :=
  if condition then pure () else fail problem

def perform (op : I.Op) : Fallible I ε (I.Answer op) :=
  Program.request op (fun answer => Program.done (.ok answer))

def lift : Except ε α → Fallible I ε α := Program.done

def run (exec : (op : I.Op) → σ → I.Answer op × σ) (program : Fallible I ε α) (state : σ) :
    Except ε α × σ := Program.run exec program state

variable (exec : (op : I.Op) → σ → I.Answer op × σ)

@[simp] theorem run_pure (value : α) (state : σ) :
    (pure value : Fallible I ε α).run exec state = (.ok value, state) := rfl

@[simp] theorem run_fail (problem : ε) (state : σ) :
    (fail problem : Fallible I ε α).run exec state = (.error problem, state) := rfl

@[simp] theorem run_lift (result : Except ε α) (state : σ) :
    (lift result : Fallible I ε α).run exec state = (result, state) := rfl

@[simp] theorem run_perform (op : I.Op) (state : σ) :
    (perform op : Fallible I ε (I.Answer op)).run exec state =
      (.ok (exec op state).1, (exec op state).2) := rfl

theorem run_bind (first : Fallible I ε α) (next : α → Fallible I ε β) (state : σ) :
    (first >>= next).run exec state =
      match first.run exec state with
      | (.ok value, after) => (next value).run exec after
      | (.error problem, after) => (.error problem, after) := by
  refine (Program.run_bind exec (show Program I (Except ε α) from first) _ state).trans ?_
  unfold run
  rcases Program.run exec first state with ⟨result, after⟩
  cases result <;> rfl

theorem run_bind_ok {first : Fallible I ε α} {state after : σ} {value : α}
    (ran : first.run exec state = (.ok value, after)) (next : α → Fallible I ε β) :
    (first >>= next).run exec state = (next value).run exec after := by
  rw [run_bind, ran]

theorem run_bind_error {first : Fallible I ε α} {state after : σ} {problem : ε}
    (ran : first.run exec state = (.error problem, after)) (next : α → Fallible I ε β) :
    (first >>= next).run exec state = (.error problem, after) := by
  rw [run_bind, ran]

@[simp] theorem run_perform_bind (op : I.Op) (next : I.Answer op → Fallible I ε β) (state : σ) :
    (perform op >>= next).run exec state =
      (next (exec op state).1).run exec (exec op state).2 := by
  rw [run_bind, run_perform]

@[simp] theorem run_lift_ok_bind (value : α) (next : α → Fallible I ε β) (state : σ) :
    ((lift (.ok value) : Fallible I ε α) >>= next).run exec state = (next value).run exec state := by
  rw [run_bind, run_lift]

@[simp] theorem run_lift_error_bind (problem : ε) (next : α → Fallible I ε β) (state : σ) :
    ((lift (.error problem) : Fallible I ε α) >>= next).run exec state = (.error problem, state) := by
  rw [run_bind, run_lift]

@[simp] theorem run_pure_bind (value : α) (next : α → Fallible I ε β) (state : σ) :
    ((pure value : Fallible I ε α) >>= next).run exec state = (next value).run exec state := by
  rw [run_bind, run_pure]

@[simp] theorem run_fail_bind (problem : ε) (next : α → Fallible I ε β) (state : σ) :
    ((fail problem : Fallible I ε α) >>= next).run exec state = (.error problem, state) := by
  rw [run_bind, run_fail]

theorem run_ensure_bind (condition : Bool) (problem : ε) (next : Unit → Fallible I ε β) (state : σ) :
    ((ensure condition problem : Fallible I ε Unit) >>= next).run exec state =
      if condition then (next ()).run exec state else (.error problem, state) := by
  cases condition
  · exact run_fail_bind exec problem next state
  · exact run_pure_bind exec () next state

theorem bind_assoc {γ : Type} (first : Fallible I ε α) (next : α → Fallible I ε β)
    (last : β → Fallible I ε γ) :
    (first >>= next) >>= last = first >>= fun value => next value >>= last := by
  refine (Program.bind_assoc (show Program I (Except ε α) from first) _ _).trans ?_
  show Program.bind _ _ = Program.bind _ _
  congr 1
  funext result
  cases result <;> rfl

def Requests (allowed : I.Op → Prop) (program : Fallible I ε α) : Prop :=
  Program.Requests allowed program

section Requests

variable {allowed : I.Op → Prop}

theorem Requests.bind {first : Fallible I ε α} {next : α → Fallible I ε β}
    (before : first.Requests allowed) (rest : ∀ value, (next value).Requests allowed) :
    (first >>= next).Requests allowed := by
  apply Program.Requests.bind before
  intro result
  cases result with
  | ok value => exact rest value
  | error problem => exact True.intro

theorem Requests.pure (value : α) : (Pure.pure value : Fallible I ε α).Requests allowed := True.intro

theorem Requests.fail (problem : ε) : (Fallible.fail problem : Fallible I ε α).Requests allowed :=
  True.intro

theorem Requests.lift (result : Except ε α) : (Fallible.lift result : Fallible I ε α).Requests allowed :=
  True.intro

theorem Requests.ensure (condition : Bool) (problem : ε) :
    (Fallible.ensure condition problem : Fallible I ε Unit).Requests allowed := by
  cases condition <;> exact True.intro

theorem Requests.perform {op : I.Op} (permitted : allowed op) :
    (Fallible.perform op : Fallible I ε (I.Answer op)).Requests allowed :=
  ⟨permitted, fun _ => True.intro⟩

theorem Requests.run_preserves {invariant : σ → Prop} {program : Fallible I ε α}
    (requests : program.Requests allowed)
    (keeps : ∀ op state, allowed op → invariant state → invariant (exec op state).2) {state : σ}
    (holds : invariant state) : invariant (program.run exec state).2 :=
  Program.Requests.run_preserves exec requests keeps holds

end Requests

end Fallible

end Effects
