import Mathlib.Algebra.Ring.Int.Defs
import Mathlib.Data.String.Basic

/-- A JSON document. The fields of an object are in the order of their keys. -/
inductive Json where
  | null
  | bool (value : Bool)
  | integer (value : Int)
  | decimal (text : String)
  | string (text : String)
  | array (items : List Json)
  | object (fields : List (String × Json))

namespace Json

def asStr : Json → Option String
  | string text => some text
  | _ => none

def asU64 : Json → Option Nat
  | integer value => if 0 ≤ value ∧ value < 2 ^ 64 then some value.toNat else none
  | _ => none

def asArray : Json → Option (List Json)
  | array items => some items
  | _ => none

def asObject : Json → Option (List (String × Json))
  | object fields => some fields
  | _ => none

def isNull : Json → Bool
  | null => true
  | _ => false

def get (key : String) (value : Json) : Option Json := value.asObject.bind (List.lookup key)

def insertField (key : String) (value : Json) : List (String × Json) → List (String × Json)
  | [] => [(key, value)]
  | (name, held) :: fields =>
    if name = key then (key, value) :: fields
    else if key < name then (key, value) :: (name, held) :: fields
    else (name, held) :: insertField key value fields

def insert (value : Json) (key : String) (inserted : Json) : Json :=
  match value with
  | object fields => object (insertField key inserted fields)
  | _ => value

def remove (key : String) : Json → Json
  | object fields => object (fields.filter fun field => field.1 ≠ key)
  | value => value

/-- Changes the field in its place, if there is one. -/
def modify (key : String) (change : Json → Json) : Json → Json
  | object fields => object (fields.map fun field => if field.1 = key then (field.1, change field.2) else field)
  | value => value

def mapArray (change : Json → Json) : Json → Json
  | array items => array (items.map change)
  | value => value

def mapObject (change : Json → Json) : Json → Json
  | object fields => object (fields.map fun field => (field.1, change field.2))
  | value => value

/-! Reading a field of a changed object. -/

variable {key other : String} {change : Json → Json} {inserted value : Json} {fields : List (String × Json)}

theorem lookup_insertField_self : (insertField key inserted fields).lookup key = some inserted := by
  induction fields with
  | nil => simp [insertField]
  | cons entry fields ih =>
    unfold insertField
    split
    · simp
    · rename_i differs
      split
      · simp
      · rw [List.lookup_cons, beq_false_of_ne (Ne.symm differs)]
        exact ih

theorem lookup_insertField_of_ne (differs : other ≠ key) :
    (insertField key inserted fields).lookup other = fields.lookup other := by
  induction fields with
  | nil => simp [insertField, List.lookup_cons, beq_false_of_ne differs]
  | cons entry fields ih =>
    unfold insertField
    split
    · rename_i same
      rw [List.lookup_cons, List.lookup_cons, same, beq_false_of_ne differs]
    · split
      · rw [List.lookup_cons, beq_false_of_ne differs]
      · rw [List.lookup_cons, List.lookup_cons, ih]

theorem get_insert_self (isObject : value.asObject = some fields) : (value.insert key inserted).get key = some inserted := by
  cases value with
  | object held => exact lookup_insertField_self
  | _ => cases isObject

theorem get_insert_of_ne (differs : other ≠ key) : (value.insert key inserted).get other = value.get other := by
  cases value with
  | object fields => exact lookup_insertField_of_ne differs
  | _ => rfl

theorem get_modify : (value.modify key change).get key = (value.get key).map change := by
  cases value with
  | object fields =>
    change (fields.map _).lookup key = (fields.lookup key).map _
    induction fields with
    | nil => rfl
    | cons entry fields ih =>
      obtain ⟨name, held⟩ := entry
      by_cases same : name = key
      · simp [same]
      · simp only [List.map_cons, same, if_false, List.lookup_cons, beq_false_of_ne (Ne.symm same)]
        exact ih
  | _ => rfl

theorem get_modify_of_ne (differs : other ≠ key) : (value.modify key change).get other = value.get other := by
  cases value with
  | object fields =>
    change (fields.map _).lookup other = fields.lookup other
    induction fields with
    | nil => rfl
    | cons entry fields ih =>
      obtain ⟨name, held⟩ := entry
      by_cases same : name = key
      · subst same
        simp only [List.map_cons, if_true, List.lookup_cons, beq_false_of_ne differs]
        exact ih
      · simp only [List.map_cons, same, if_false, List.lookup_cons]
        rw [ih]
  | _ => rfl

theorem get_remove_of_ne (differs : other ≠ key) : (value.remove key).get other = value.get other := by
  cases value with
  | object fields =>
    change (fields.filter _).lookup other = fields.lookup other
    induction fields with
    | nil => rfl
    | cons entry fields ih =>
      obtain ⟨name, held⟩ := entry
      by_cases same : name = key
      · subst same
        rw [List.filter_cons_of_neg (by simp), List.lookup_cons, beq_false_of_ne differs]
        exact ih
      · rw [List.filter_cons_of_pos (by simpa using same), List.lookup_cons, List.lookup_cons, ih]
  | _ => rfl

theorem get_remove_self : (value.remove key).get key = none := by
  cases value with
  | object fields =>
    change (fields.filter _).lookup key = none
    induction fields with
    | nil => rfl
    | cons entry fields ih =>
      obtain ⟨name, held⟩ := entry
      by_cases same : name = key
      · rw [List.filter_cons_of_neg (by simpa using same)]
        exact ih
      · rw [List.filter_cons_of_pos (by simpa using same), List.lookup_cons, beq_false_of_ne (Ne.symm same)]
        exact ih
  | _ => rfl

end Json
