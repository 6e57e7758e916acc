import Mathlib.Data.List.Infix
import Mathlib.Data.String.Basic
import Mathlib.Order.Compare
import OpenShell.Lib.Json

/-! The values of a rule language over JSON. An expression that has no value is undefined, and an undefined
expression makes the rule that uses it fail; `not` turns the failure of an expression into success. -/

namespace Rego

/-- The part of the language that is left to the engine that runs it. -/
structure Engine where
  lower : String → String
  upper : String → String
  globMatch : String → List String → String → Bool
  compare : Json → Json → Ordering
  /-- What `sprintf` writes for a value. -/
  shown : Json → String
  compare_string : ∀ value text, compare value (.string text) = .eq ↔ value = .string text
  compare_null : ∀ value, compare value .null = .eq ↔ value = .null
  compare_integer : ∀ first second, compare (.integer first) (.integer second) = .eq ↔ first = second
  shown_string : ∀ text, shown (.string text) = text
  shown_integer : ∀ value, shown (.integer value) = toString value

/-! Values. -/

def truthy : Json → Bool
  | .bool value => value
  | _ => true

/-- The statement that an expression is. -/
def holds (value : Option Json) : Bool := value.any truthy

/-- The keys and values of `collection[key]`. -/
def entries : Json → List (Json × Json)
  | .array items => items.zipIdx.map fun entry => (.integer entry.2, entry.1)
  | .object fields => fields.map fun entry => (.string entry.1, entry.2)
  | _ => []

/-- The values of `collection[_]`. -/
def elements (collection : Option Json) : List Json := (collection.elim [] entries).map Prod.snd

def lookup (key : Json) (value : Json) : Option Json := key.asStr.bind fun name => value.get name

/-- `object.get`, which is defined on objects only. -/
def getOr (object : Option Json) (key default : Json) : Option Json :=
  (object.filter fun value => value.asObject.isSome).map fun value => (lookup key value).getD default

theorem getOr_object {object default : Json} {key : String} (isObject : object.asObject.isSome) :
    getOr (some object) (.string key) default = some ((object.get key).getD default) := by
  simp [getOr, isObject, lookup, Json.asStr]

theorem elements_map {α : Type} (json : α → Json) (items : List α) :
    elements (some (.array (items.map json))) = items.map json := by
  simp [elements, entries, Function.comp_def]

def count : Option Json → Option Nat
  | some (.array items) => some items.length
  | some (.object fields) => some fields.length
  | some (.string text) => some text.length
  | _ => none

/-- `count(value) > 0`. -/
def inhabited (value : Option Json) : Bool := (count value).any (0 < ·)

def contains (text : Option Json) (part : String) : Bool :=
  (text.bind Json.asStr).any fun held => decide (part.toList <:+: held.toList)

def concat (delimiter : String) (texts : Option Json) : Option String :=
  (texts.bind Json.asArray).bind fun items => (items.mapM Json.asStr).map delimiter.intercalate

theorem contains_char (text : String) (c : Char) (part : String) (single : part.toList = [c]) :
    contains (some (.string text)) part = text.toList.contains c := by
  simp [contains, Json.asStr, single, List.singleton_infix_iff]

theorem concat_strings (delimiter : String) (texts : List String) :
    concat delimiter (some (.array (texts.map .string))) = some (delimiter.intercalate texts) := by
  have read : (texts.map Json.string).mapM Json.asStr = some texts := by
    induction texts with
    | nil => rfl
    | cons text texts ih => rw [List.map_cons, List.mapM_cons, ih]; rfl
  simp only [concat, Option.bind_some, Json.asArray, read, Option.map_some]

/-! The outcome of a complete rule, of the values of its definitions. -/

inductive Outcome (α : Type) where
  | undefined
  | value (result : α)
  | conflict
deriving DecidableEq

def complete {α : Type} [DecidableEq α] : List α → Outcome α
  | [] => .undefined
  | result :: others => if others.all (· == result) then .value result else .conflict

theorem complete_single {α : Type} [DecidableEq α] (result : α) : complete [result] = .value result := rfl

namespace Engine

variable (engine : Engine)

def eq : Option Json → Option Json → Bool
  | some first, some second => engine.compare first second == .eq
  | _, _ => false

def ne : Option Json → Option Json → Bool
  | some first, some second => engine.compare first second != .eq
  | _, _ => false

def lowered (value : Option Json) : Option Json := (value.bind Json.asStr).map fun text => .string (engine.lower text)

def uppered (value : Option Json) : Option Json := (value.bind Json.asStr).map fun text => .string (engine.upper text)

def glob (pattern : Option Json) (delimiters : List String) (text : Option Json) : Bool :=
  match pattern.bind Json.asStr, text.bind Json.asStr with
  | some pattern, some text => engine.globMatch pattern delimiters text
  | _, _ => false

def min : List Json → Option Json
  | [] => none
  | value :: values =>
    some (values.foldl (fun least value => if engine.compare value least = .lt then value else least) value)

/-- The text of a format whose verbs stand beside their arguments. -/
def sprintf (pieces : List (String ⊕ Option Json)) : Option String :=
  (pieces.mapM (Sum.elim some (Option.map engine.shown))).map String.join

end Engine

/-! An engine that has an order of its own: values of one kind by what they hold, and the kinds in turn. -/

def rank : Json → Nat
  | .null => 0
  | .bool _ => 1
  | .integer _ => 2
  | .decimal _ => 3
  | .string _ => 4
  | .array _ => 5
  | .object _ => 6

mutual

def ordered : Json → Json → Ordering
  | .bool first, .bool second => compare first second
  | .integer first, .integer second => compare first second
  | .decimal first, .decimal second => compare first second
  | .string first, .string second => compare first second
  | .array first, .array second => orderedItems first second
  | .object first, .object second => orderedFields first second
  | first, second => compare (rank first) (rank second)

def orderedItems : List Json → List Json → Ordering
  | [], [] => .eq
  | [], _ :: _ => .lt
  | _ :: _, [] => .gt
  | first :: firsts, second :: seconds => (ordered first second).then (orderedItems firsts seconds)

def orderedFields : List (String × Json) → List (String × Json) → Ordering
  | [], [] => .eq
  | [], _ :: _ => .lt
  | _ :: _, [] => .gt
  | (key, first) :: firsts, (name, second) :: seconds =>
    (compare key name).then ((ordered first second).then (orderedFields firsts seconds))

end

theorem ordered_string (value : Json) (text : String) :
    ordered value (.string text) = .eq ↔ value = .string text := by
  cases value <;> simp [ordered, rank]

theorem ordered_null (value : Json) : ordered value .null = .eq ↔ value = .null := by
  cases value <;> simp [ordered, rank]

theorem ordered_integer (first second : Int) :
    ordered (.integer first) (.integer second) = .eq ↔ first = second := by
  simp [ordered]

def shownScalar : Json → String
  | .string text => text
  | .integer value => toString value
  | _ => ""

def scalarEngine (lower upper : String → String) (globMatch : String → List String → String → Bool) : Engine where
  lower := lower
  upper := upper
  globMatch := globMatch
  compare := ordered
  shown := shownScalar
  compare_string := ordered_string
  compare_null := ordered_null
  compare_integer := ordered_integer
  shown_string _ := rfl
  shown_integer _ := rfl

end Rego
