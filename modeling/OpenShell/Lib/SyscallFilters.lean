import Mathlib.Data.Fin.Basic
import Mathlib.Logic.Function.Basic

/-! Filters of system calls, by their number and the low words of their arguments. -/

namespace SyscallFilters

structure SystemCall where
  number : Int
  args : Fin 6 → UInt64

/-- The argument that a call of C reads as an `int`. -/
def SystemCall.word (call : SystemCall) (index : Fin 6) : UInt32 := (call.args index).toUInt32

inductive CmpOp where
  | eq
  | maskedEq (mask : UInt64)
deriving DecidableEq

/-- A comparison of one argument, of which only the low word counts. -/
structure Condition where
  index : Fin 6
  op : CmpOp
  value : UInt64
deriving DecidableEq

def Condition.holds (condition : Condition) (call : SystemCall) : Bool :=
  match condition.op with
  | .eq => call.word condition.index = condition.value.toUInt32
  | .maskedEq mask => call.word condition.index &&& mask.toUInt32 = condition.value.toUInt32 &&& mask.toUInt32

/-- A rule matches a call of which every condition holds. -/
abbrev Rule : Type := List Condition

def Rule.matches (rule : Rule) (call : SystemCall) : Bool := rule.all fun condition => condition.holds call

/-- The rules of each call. A call with an entry and no rule is matched by every use. -/
abbrev Rules : Type := Int → Option (List Rule)

namespace Rules

def empty : Rules := fun _ => none

def entry (rules : Rules) (number : Int) : Rules :=
  Function.update rules number (some ((rules number).getD []))

def push (rules : Rules) (number : Int) (rule : Rule) : Rules :=
  Function.update rules number (some ((rules number).getD [] ++ [rule]))

/-- The filter refuses what its rules match and lets everything else pass. -/
def refuses (rules : Rules) (call : SystemCall) : Bool :=
  match rules call.number with
  | none => false
  | some [] => true
  | some found => found.any fun rule => Rule.matches rule call

variable {rules : Rules} {call : SystemCall}

theorem refuses_of_none (unlisted : rules call.number = none) : rules.refuses call = false := by
  simp only [refuses, unlisted]

theorem refuses_iff {found : List Rule} (listed : rules call.number = some found) :
    rules.refuses call = true ↔ found = [] ∨ ∃ rule ∈ found, Rule.matches rule call = true := by
  cases found with
  | nil => simp [refuses, listed]
  | cons rule rest => simp [refuses, listed]

theorem foldl_push {α : Type} (number : Int) (rule : α → Rule) (items : List α) (filled : items ≠ []) (rules : Rules) :
    items.foldl (fun rules item => rules.push number (rule item)) rules =
      Function.update rules number (some ((rules number).getD [] ++ items.map rule)) := by
  induction items generalizing rules with
  | nil => exact absurd rfl filled
  | cons item rest ih =>
    cases rest with
    | nil => rfl
    | cons next rest =>
      rw [List.foldl_cons, ih (List.cons_ne_nil _ _)]
      simp [push, List.append_assoc]

end Rules

end SyscallFilters
