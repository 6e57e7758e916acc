import Mathlib.Logic.Relation
import OpenShell.Lib.Program

namespace Effects

structure Event (I : Interface) where
  op : I.Op
  answer : I.Answer op

structure Thread (I : Interface) (κ α : Type) where
  call : κ
  trace : List (Event I)
  program : Program I α

structure Config (I : Interface) (σ κ α : Type) where
  state : σ
  threads : List (Thread I κ α)

variable {I : Interface} {σ κ α : Type}

section Steps

variable (body : κ → Program I α) (execute : (op : I.Op) → σ → I.Answer op → σ → Prop)
  (admits : Config I σ κ α → κ → Prop)

/-- Calls start when they are admitted, and any unfinished call may make its next request. -/
inductive Step : Config I σ κ α → Config I σ κ α → Prop
  | start {config : Config I σ κ α} {call : κ} (admitted : admits config call) :
    Step config ⟨config.state, config.threads ++ [⟨call, [], body call⟩]⟩
  | advance {state next : σ} {before after : List (Thread I κ α)} {call : κ} {trace : List (Event I)}
      {op : I.Op} {rest : I.Answer op → Program I α} {answer : I.Answer op}
      (performed : execute op state answer next) :
    Step ⟨state, before ++ ⟨call, trace, .request op rest⟩ :: after⟩
      ⟨next, before ++ ⟨call, trace ++ [⟨op, answer⟩], rest answer⟩ :: after⟩

def Reachable (initial : σ) : Config I σ κ α → Prop :=
  Relation.ReflTransGen (Step body execute admits) ⟨initial, []⟩

variable {body execute admits}

theorem Reachable.invariant {initial : σ} {property : Config I σ κ α → Prop}
    (base : property ⟨initial, []⟩)
    (step : ∀ first second, property first → Step body execute admits first second → property second)
    {config : Config I σ κ α} (reached : Reachable body execute admits initial config) :
    property config := by
  induction reached with
  | refl => exact base
  | tail _ last ih => exact step _ _ ih last

/-! Schedules: a step-by-step interleaving that can be computed. -/

inductive Move (κ : Type) where
  | start (call : κ)
  | advance (position : Nat)

theorem mem_middle {β : Type} {before after : List β} {item other : β} :
    other ∈ before ++ item :: after ↔ other = item ∨ other ∈ before ++ after :=
  List.perm_middle.mem_iff.trans List.mem_cons

namespace Config

variable (body : κ → Program I α) (exec : (op : I.Op) → σ → I.Answer op × σ)

def advance (position : Nat) (config : Config I σ κ α) : Config I σ κ α :=
  match config.threads[position]? with
  | some ⟨call, trace, .request op rest⟩ =>
    ⟨(exec op config.state).2, config.threads.set position
      ⟨call, trace ++ [⟨op, (exec op config.state).1⟩], rest (exec op config.state).1⟩⟩
  | _ => config

def move (config : Config I σ κ α) : Move κ → Config I σ κ α
  | .start call => ⟨config.state, config.threads ++ [⟨call, [], body call⟩]⟩
  | .advance position => config.advance exec position

def play (config : Config I σ κ α) (moves : List (Move κ)) : Config I σ κ α :=
  moves.foldl (move body exec) config

variable {body exec}

theorem split_at {β : Type} {items : List β} {position : Nat} {item : β}
    (found : items[position]? = some item) (other : β) :
    ∃ before after, items = before ++ item :: after ∧ items.set position other = before ++ other :: after := by
  obtain ⟨inside, same⟩ := List.getElem?_eq_some_iff.mp found
  refine ⟨items.take position, items.drop (position + 1), ?_, ?_⟩
  · rw [← same, ← List.drop_eq_getElem_cons inside, List.take_append_drop]
  · rw [List.set_eq_take_append_cons_drop, if_pos inside]

theorem step_advance (performs : ∀ op state, execute op state (exec op state).1 (exec op state).2)
    (position : Nat) (config : Config I σ κ α) :
    Relation.ReflTransGen (Step body execute admits) config (config.advance exec position) := by
  obtain ⟨state, threads⟩ := config
  unfold advance
  split
  · rename_i call trace op rest found
    obtain ⟨before, after, held, updated⟩ := split_at found
      ⟨call, trace ++ [⟨op, (exec op state).1⟩], rest (exec op state).1⟩
    simp only at held updated ⊢
    rw [updated, held]
    exact Relation.ReflTransGen.single (Step.advance (performs op state))
  · exact Relation.ReflTransGen.refl

variable (body exec admits) in
def Admitted : Config I σ κ α → List (Move κ) → Prop
  | _, [] => True
  | config, .start call :: rest => admits config call ∧ Admitted (config.move body exec (.start call)) rest
  | config, .advance position :: rest => Admitted (config.move body exec (.advance position)) rest

theorem admitted_of_starts (moves : List (Move κ)) (config : Config I σ κ α)
    (starts : ∀ call, .start call ∈ moves → ∀ config, admits config call) :
    config.Admitted admits body exec moves := by
  induction moves generalizing config with
  | nil => exact True.intro
  | cons next rest ih =>
    have later := fun config => ih config fun call member => starts call (List.mem_cons_of_mem _ member)
    cases next with
    | start call => exact ⟨starts call List.mem_cons_self config, later _⟩
    | advance position => exact later _

end Config

theorem reachable_play {exec : (op : I.Op) → σ → I.Answer op × σ}
    (performs : ∀ op state, execute op state (exec op state).1 (exec op state).2) (initial : σ)
    (moves : List (Move κ)) (admitted : Config.Admitted admits body exec ⟨initial, []⟩ moves) :
    Reachable body execute admits initial (Config.play body exec ⟨initial, []⟩ moves) := by
  have steps : ∀ config : Config I σ κ α, config.Admitted admits body exec moves →
      Relation.ReflTransGen (Step body execute admits) config (Config.play body exec config moves) := by
    clear admitted
    induction moves with
    | nil => exact fun config _ => Relation.ReflTransGen.refl
    | cons next rest ih =>
      intro config admitted
      cases next with
      | start call =>
        have started : Step body execute admits config
            ⟨config.state, config.threads ++ [⟨call, [], body call⟩]⟩ := Step.start admitted.1
        exact (Relation.ReflTransGen.single started).trans (ih _ admitted.2)
      | advance position => exact (Config.step_advance performs position config).trans (ih _ admitted)
  exact steps ⟨initial, []⟩ admitted

end Steps

/-! Traces: what a call has asked by the time it ends. -/

/-- Whatever the answers are, the events from here to the end and the result satisfy `holds`. -/
def Program.Ends : Program I α → (List (Event I) → α → Prop) → Prop
  | .done value, holds => holds [] value
  | .request op next, holds =>
    ∀ answer, (next answer).Ends (fun trace value => holds (⟨op, answer⟩ :: trace) value)

def Thread.OnTrack (body : κ → Program I α) (thread : Thread I κ α) : Prop :=
  ∀ holds, (body thread.call).Ends holds →
    thread.program.Ends (fun rest value => holds (thread.trace ++ rest) value)

theorem Program.Ends.mono {program : Program I α} {weaker stronger : List (Event I) → α → Prop}
    (ends : program.Ends stronger) (implies : ∀ trace value, stronger trace value → weaker trace value) :
    program.Ends weaker := by
  induction program generalizing weaker stronger with
  | done value => exact implies _ _ ends
  | request op next ih => exact fun answer => ih answer (ends answer) fun trace value => implies _ _

theorem Program.Ends.bind {β : Type} {program : Program I α} {next : α → Program I β}
    {holds : List (Event I) → β → Prop}
    (ends : program.Ends fun trace value =>
      (next value).Ends fun later result => holds (trace ++ later) result) :
    (program.bind next).Ends holds := by
  induction program generalizing holds with
  | done value => exact ends
  | request op rest ih => exact fun answer => ih answer (ends answer)

theorem Program.Requests.ends {allowed : I.Op → Prop} {program : Program I α}
    (requests : program.Requests allowed) :
    program.Ends fun trace _ => ∀ event ∈ trace, allowed event.op := by
  induction program with
  | done value => exact fun event member => absurd member List.not_mem_nil
  | request op next ih =>
    intro answer
    apply Program.Ends.mono (ih answer (requests.2 answer))
    intro trace value earlier event member
    rcases List.mem_cons.mp member with self | later
    · rw [self]
      exact requests.1
    · exact earlier event later

theorem Thread.onTrack_start (body : κ → Program I α) (call : κ) :
    Thread.OnTrack body ⟨call, [], body call⟩ := by
  intro holds ends
  exact ends

theorem Thread.OnTrack.advance {body : κ → Program I α} {call : κ} {trace : List (Event I)} {op : I.Op}
    {rest : I.Answer op → Program I α} (onTrack : Thread.OnTrack body ⟨call, trace, .request op rest⟩)
    (answer : I.Answer op) : Thread.OnTrack body ⟨call, trace ++ [⟨op, answer⟩], rest answer⟩ := by
  intro holds ends
  apply Program.Ends.mono (onTrack holds ends answer)
  intro later value held
  rw [List.append_assoc]
  exact held

/-! Rely and guarantee: every call promises how it moves the state and may count on the others moving
it in the same way. -/

structure Discipline (σ : Type) where
  invariant : σ → Prop
  evolves : σ → σ → Prop

def Discipline.Stable (discipline : Discipline σ) (fact : σ → Prop) : Prop :=
  ∀ state next, discipline.invariant state → fact state → discipline.evolves state next → fact next

theorem Discipline.stable_true (discipline : Discipline σ) : discipline.Stable (fun _ => True) :=
  fun _ _ _ _ _ => True.intro

structure Contract (I : Interface) (σ κ : Type) extends Discipline σ where
  records : κ → Event I → σ → Prop

namespace Contract

variable (contract : Contract I σ κ) (execute : (op : I.Op) → σ → I.Answer op → σ → Prop)

/-- From any state in which `known` holds, every request the program makes keeps the contract, and
    what it learns from the answer is stable. -/
def Safe (call : κ) : Program I α → (σ → Prop) → Prop
  | .done _, _ => True
  | .request op next, known => ∀ state answer after, contract.invariant state → known state →
      execute op state answer after →
      contract.invariant after ∧ contract.evolves state after ∧
        contract.records call ⟨op, answer⟩ after ∧
        ∃ learnt, contract.Stable learnt ∧ learnt after ∧ Safe call (next answer) learnt

theorem Safe.after {contract : Contract I σ κ} {execute : (op : I.Op) → σ → I.Answer op → σ → Prop}
    {β : Type} {call : κ} {allowed : I.Op → Prop} {known : σ → Prop} {first : Program I α}
    {next : α → Program I β} (requests : first.Requests allowed)
    (keeps : ∀ op state answer after, allowed op → contract.invariant state →
      execute op state answer after → contract.invariant after ∧ contract.evolves state after ∧
        contract.records call ⟨op, answer⟩ after)
    (stable : contract.Stable known) (rest : ∀ value, contract.Safe execute call (next value) known) :
    contract.Safe execute call (first.bind next) known := by
  induction first with
  | done value => exact rest value
  | request op continues ih =>
    intro state answer after holds true_now performed
    obtain ⟨invariant, moved, recorded⟩ := keeps op state answer after requests.1 holds performed
    have true_next := stable state after holds true_now moved
    exact ⟨invariant, moved, recorded, known, stable, true_next, ih answer (requests.2 answer)⟩

theorem Safe.of_requests {contract : Contract I σ κ}
    {execute : (op : I.Op) → σ → I.Answer op → σ → Prop} {call : κ} {allowed : I.Op → Prop}
    {known : σ → Prop} {program : Program I α} (requests : program.Requests allowed)
    (keeps : ∀ op state answer after, allowed op → contract.invariant state →
      execute op state answer after → contract.invariant after ∧ contract.evolves state after ∧
        contract.records call ⟨op, answer⟩ after)
    (stable : contract.Stable known) : contract.Safe execute call program known := by
  induction program with
  | done value => exact True.intro
  | request op continues ih =>
    intro state answer after holds true_now performed
    obtain ⟨invariant, moved, recorded⟩ := keeps op state answer after requests.1 holds performed
    have true_next := stable state after holds true_now moved
    exact ⟨invariant, moved, recorded, known, stable, true_next, ih answer (requests.2 answer)⟩

theorem Safe.map {contract : Contract I σ κ} {execute : (op : I.Op) → σ → I.Answer op → σ → Prop}
    {β : Type} {call : κ} {known : σ → Prop} {program : Program I α} {next : α → Program I β}
    (safe : contract.Safe execute call program known) (finishes : ∀ value, ∃ result, next value = .done result) :
    contract.Safe execute call (program.bind next) known := by
  induction program generalizing known with
  | done value =>
    obtain ⟨result, ends⟩ := finishes value
    simp only [Program.bind, ends]
    exact True.intro
  | request op continues ih =>
    intro state answer after holds true_now performed
    obtain ⟨invariant, moved, recorded, learnt, lasting, true_next, rest⟩ :=
      safe state answer after holds true_now performed
    exact ⟨invariant, moved, recorded, learnt, lasting, true_next, ih answer rest⟩

structure Kept (body : κ → Program I α) (state : σ) (thread : Thread I κ α) : Prop where
  onTrack : thread.OnTrack body
  recorded : ∀ event ∈ thread.trace, contract.records thread.call event state
  safe : ∃ known, contract.Stable known ∧ known state ∧
    contract.Safe execute thread.call thread.program known

variable {contract execute} {body : κ → Program I α} {admits : Config I σ κ α → κ → Prop}

theorem Kept.evolve (stable : ∀ call event, contract.Stable (contract.records call event)) {state next : σ}
    {thread : Thread I κ α} (holds : contract.invariant state) (moved : contract.evolves state next)
    (kept : contract.Kept execute body state thread) : contract.Kept execute body next thread := by
  obtain ⟨known, lasting, true_now, safe⟩ := kept.safe
  refine ⟨kept.onTrack, ?_, known, lasting, lasting state next holds true_now moved, safe⟩
  intro event member
  exact stable thread.call event state next holds (kept.recorded event member) moved

/-- If every call is safe on its own, the contract is kept in every interleaving. -/
theorem kept_of_reachable (stable : ∀ call event, contract.Stable (contract.records call event))
    (safe : ∀ call, contract.Safe execute call (body call) (fun _ => True)) {initial : σ}
    (begins : contract.invariant initial) {config : Config I σ κ α}
    (reached : Reachable body execute admits initial config) :
    contract.invariant config.state ∧
      ∀ thread ∈ config.threads, contract.Kept execute body config.state thread := by
  revert reached
  apply Reachable.invariant
  · exact ⟨begins, fun thread member => absurd member List.not_mem_nil⟩
  · intro first second held step
    obtain ⟨holds, threads⟩ := held
    cases step with
    | start admitted =>
      rename_i call
      refine ⟨holds, ?_⟩
      intro thread member
      rcases List.mem_append.mp member with earlier | new
      · exact threads thread earlier
      · rw [List.mem_singleton.mp new]
        refine ⟨Thread.onTrack_start body call, ?_, ?_⟩
        · intro event member
          exact absurd member List.not_mem_nil
        · exact ⟨fun _ => True, contract.stable_true, True.intro, safe call⟩
    | advance performed =>
      rename_i state next before after call trace op rest answer
      have own := threads ⟨call, trace, .request op rest⟩ (by simp)
      obtain ⟨known, _, true_now, step_safe⟩ := own.safe
      obtain ⟨invariant, moved, recorded, learnt, lasting, true_next, rest_safe⟩ :=
        step_safe state answer next holds true_now performed
      refine ⟨invariant, ?_⟩
      intro thread member
      rcases mem_middle.mp member with self | elsewhere
      · rw [self]
        refine ⟨own.onTrack.advance answer, ?_, learnt, lasting, true_next, rest_safe⟩
        intro event eventIn
        rcases List.mem_append.mp eventIn with old | new
        · exact stable call event state next holds (own.recorded event old) moved
        · rw [List.mem_singleton.mp new]
          exact recorded
      · exact (threads thread (mem_middle.mpr (Or.inr elsewhere))).evolve stable holds moved

end Contract

end Effects
