import OpenShell.Lib.Pages
import OpenShell.Lib.Table
import OpenShell.Server.PolicyWrites
import Mathlib.Data.Prod.Lex
import Mathlib.Data.String.Basic

namespace OpenShell.Server

open Relational

/-! The `objects` table: the messages of every type, each under its id and its name. -/

/-- The traits `ObjectType`, `ObjectId` and `ObjectName`. -/
class Stored (Message : Type) where
  objectType : Message → String
  objectId : Message → String
  objectName : Message → String

structure ObjectRecord (Message : Type) where
  name : String
  message : Message
  createdAtMs : Int

/-- A statement of the store that fails with the error's text, or has its result. -/
def attempt {α : Type} (failure : Option String) (result : Except String α) : Except String α :=
  match failure with
  | some text => .error text
  | none => result

/-- `.map_err(|e| Status::internal(format!("…: {e}")))`. -/
def mapInternal {α : Type} (problem : String) (result : Except String α) : Except Status α :=
  result.mapError fun text => ⟨.internal, problem ++ ": " ++ text⟩

theorem mapInternal_ok {α : Type} {problem : String} {result : Except String α} {value : α}
    (succeeded : mapInternal problem result = .ok value) : result = .ok value := by
  cases result with
  | error text => cases succeeded
  | ok found =>
    cases succeeded
    rfl

theorem attempt_ok {α : Type} {failure : Option String} {result : Except String α} {problem : String} {value : α}
    (succeeded : mapInternal problem (attempt failure result) = .ok value) : failure = none ∧ result = .ok value := by
  cases failure with
  | some text => cases succeeded
  | none =>
    cases result with
    | error text => cases succeeded
    | ok found =>
      cases succeeded
      exact ⟨rfl, rfl⟩

namespace ObjectRecord

variable {Message : Type} [Stored Message]

def id (record : ObjectRecord Message) : String := Stored.objectId record.message

def objectType (record : ObjectRecord Message) : String := Stored.objectType record.message

/-- The columns that are unique beside the id. -/
def key (record : ObjectRecord Message) : String × String := (record.objectType, record.name)

def withMessage (record : ObjectRecord Message) (message : Message) : ObjectRecord Message :=
  { record with message := message }

/-- `"id" = ? AND "object_type" = ?`. -/
def holds (objectType id : String) (record : ObjectRecord Message) : Bool :=
  record.objectType = objectType && record.id = id

/-- `ORDER BY "created_at_ms" ASC, "name" ASC`. -/
def rank (record : ObjectRecord Message) : Int ×ₗ String := toLex (record.createdAtMs, record.name)

/-- The row that `INSERT` adds. -/
def inserted (nowMs : Int) (message : Message) : ObjectRecord Message :=
  { name := Stored.objectName message, message := message, createdAtMs := nowMs }

theorem holds_iff {objectType id : String} {record : ObjectRecord Message} :
    record.holds objectType id = true ↔ record.objectType = objectType ∧ record.id = id := by
  simp [holds]

theorem withMessage_id (message : Message) (record : ObjectRecord Message)
    (held : record.holds (Stored.objectType message) (Stored.objectId message) = true) :
    (record.withMessage message).id = record.id :=
  (holds_iff.mp held).2.symm

end ObjectRecord

structure Objects (Message : Type) [Stored Message] where
  table : Table fun record : ObjectRecord Message => record.id
  named : (table.rows.map ObjectRecord.key).Nodup

namespace Objects

variable {Message : Type} [Stored Message]

instance : Membership (ObjectRecord Message) (Objects Message) where
  mem objects record := record ∈ objects.table.rows

theorem mem_rows {objects : Objects Message} {record : ObjectRecord Message} :
    record ∈ objects ↔ record ∈ objects.table.rows := Iff.rfl

theorem ext {first second : Objects Message} (same : first.table.rows = second.table.rows) : first = second := by
  obtain ⟨⟨rows, unique⟩, named⟩ := first
  obtain ⟨⟨others, othersUnique⟩, othersNamed⟩ := second
  subst same
  rfl

def empty : Objects Message := ⟨Table.empty, List.nodup_nil⟩

theorem eq_of_id {objects : Objects Message} {first second : ObjectRecord Message} (firstIn : first ∈ objects)
    (secondIn : second ∈ objects) (same : first.id = second.id) : first = second :=
  objects.table.eq_of_key firstIn secondIn same

/-- An id that is taken by an object of the same type receives the new payload and keeps its other columns; one that
    is taken by another type keeps everything. -/
def replace (objects : Objects Message) (message : Message) : Objects Message where
  table := objects.table.update (ObjectRecord.holds (Stored.objectType message) (Stored.objectId message))
    (fun record => record.withMessage message) (ObjectRecord.withMessage_id message)
  named := by
    have kept : (objects.table.rows.map fun record =>
        if record.holds (Stored.objectType message) (Stored.objectId message) then record.withMessage message
        else record).map ObjectRecord.key = objects.table.rows.map ObjectRecord.key := by
      rw [List.map_map]
      apply List.map_congr_left
      intro record _
      simp only [Function.comp_apply]
      split
      · rename_i held
        rw [ObjectRecord.key, ObjectRecord.key, (ObjectRecord.holds_iff.mp held).1]
        rfl
      · rfl
    exact kept ▸ objects.named

theorem nodup_concat {α : Type} {list : List α} {last : α} (nodup : list.Nodup) (new : last ∉ list) :
    (list ++ [last]).Nodup := by
  rw [← List.concat_eq_append]
  exact nodup.concat new

def append (objects : Objects Message) (record : ObjectRecord Message)
    (newId : record.id ∉ objects.table.rows.map ObjectRecord.id)
    (newKey : record.key ∉ objects.table.rows.map ObjectRecord.key) : Objects Message where
  table := ⟨objects.table.rows ++ [record], by
    rw [List.map_append]
    exact nodup_concat objects.table.unique newId⟩
  named := by
    rw [List.map_append]
    exact nodup_concat objects.named newKey

/-- `put_message`. -/
def put (objects : Objects Message) (nowMs : Int) (message : Message) : Except String (Objects Message) :=
  if newId : (ObjectRecord.inserted nowMs message).id ∉ objects.table.rows.map ObjectRecord.id then
    if newKey : (ObjectRecord.inserted nowMs message).key ∉ objects.table.rows.map ObjectRecord.key then
      .ok (objects.append (.inserted nowMs message) newId newKey)
    else .error (Store.uniqueViolation "objects.object_type, objects.name")
  else .ok (objects.replace message)

/-- `get_by_name`. -/
def getByName (objects : Objects Message) (objectType name : String) : Option (ObjectRecord Message) :=
  objects.table.rows.find? fun record => record.key = (objectType, name)

/-- `DELETE FROM "objects"`: whether a row was deleted, and the table. -/
def deleteWhere (objects : Objects Message) (selected : ObjectRecord Message → Bool) : Bool × Objects Message :=
  (objects.table.rows.any selected,
    ⟨objects.table.delete selected, objects.named.sublist (List.filter_sublist.map ObjectRecord.key)⟩)

def delete (objects : Objects Message) (objectType id : String) : Bool × Objects Message :=
  objects.deleteWhere (ObjectRecord.holds objectType id)

def deleteByName (objects : Objects Message) (objectType name : String) : Bool × Objects Message :=
  objects.deleteWhere fun record => record.key = (objectType, name)

def ofType (objects : Objects Message) (objectType : String) : List (ObjectRecord Message) :=
  objects.table.rows.filter fun record => record.objectType = objectType

def list (objects : Objects Message) (objectType : String) (limit offset : Nat) : List (ObjectRecord Message) :=
  ((Pages.sorted ObjectRecord.rank (objects.ofType objectType)).drop offset).take limit

/-! What the operations do to the records. -/

variable {objects result : Objects Message} {record : ObjectRecord Message} {message : Message} {nowMs : Int}

theorem mem_replace : record ∈ objects.replace message ↔ ∃ old ∈ objects,
    record = if old.holds (Stored.objectType message) (Stored.objectId message) then old.withMessage message
      else old := by
  rw [mem_rows, ← Table.mem_rows, replace, Table.mem_update]
  exact Iff.rfl

theorem mem_replace_other (differs : record.objectType ≠ Stored.objectType message) :
    record ∈ objects.replace message ↔ record ∈ objects := by
  rw [mem_replace]
  constructor
  · rintro ⟨old, member, rfl⟩
    split at differs
    · exact absurd rfl differs
    · rename_i free
      rw [if_neg free]
      exact member
  · intro member
    refine ⟨record, member, (if_neg fun held => ?_).symm⟩
    exact differs (ObjectRecord.holds_iff.mp held).1

theorem ofType_replace {objectType : String} (differs : objectType ≠ Stored.objectType message) :
    (objects.replace message).ofType objectType = objects.ofType objectType := by
  have kept : ∀ old : ObjectRecord Message, old.objectType = objectType →
      (if old.holds (Stored.objectType message) (Stored.objectId message) then old.withMessage message else old) =
        old := by
    rintro old rfl
    rw [if_neg fun held => differs (ObjectRecord.holds_iff.mp held).1]
  have sameType : ∀ old : ObjectRecord Message,
      (if old.holds (Stored.objectType message) (Stored.objectId message) then old.withMessage message else old).objectType =
        old.objectType := by
    intro old
    split
    · rename_i held
      exact (ObjectRecord.holds_iff.mp held).1.symm
    · rfl
  show (objects.table.rows.map _).filter _ = objects.table.rows.filter _
  rw [List.filter_map]
  simp only [Function.comp_def, sameType]
  rw [List.map_congr_left (g := id), List.map_id]
  intro old member
  exact kept old (of_decide_eq_true (List.mem_filter.mp member).2)

theorem mem_deleteWhere {selected : ObjectRecord Message → Bool} :
    record ∈ (objects.deleteWhere selected).2 ↔ record ∈ objects ∧ selected record = false := by
  simp only [mem_rows, deleteWhere, Table.delete, List.mem_filter, Bool.not_eq_true']

theorem mem_delete {objectType id : String} :
    record ∈ (objects.delete objectType id).2 ↔ record ∈ objects ∧ ¬(record.objectType = objectType ∧ record.id = id) := by
  rw [delete, mem_deleteWhere, ← ObjectRecord.holds_iff, Bool.not_eq_true]

theorem put_new (newId : ∀ old ∈ objects, old.id ≠ Stored.objectId message)
    (stored : objects.put nowMs message = .ok result) :
    result.table.rows = objects.table.rows ++ [.inserted nowMs message] ∧
      ∀ old ∈ objects, old.key ≠ (Stored.objectType message, Stored.objectName message) := by
  have absent : Stored.objectId message ∉ objects.table.rows.map ObjectRecord.id := by
    rw [List.mem_map]
    rintro ⟨old, member, same⟩
    exact newId old member same
  unfold put at stored
  split at stored
  · split at stored
    · rename_i newKey
      cases stored
      refine ⟨rfl, fun old member same => newKey ?_⟩
      exact List.mem_map.mpr ⟨old, member, same⟩
    · cases stored
  · rename_i taken
    exact absurd absent taken

theorem put_error {text : String} (failed : objects.put nowMs message = .error text) :
    ∃ old ∈ objects, old.key = (Stored.objectType message, Stored.objectName message) := by
  unfold put at failed
  split at failed
  · split at failed
    · cases failed
    · rename_i taken
      exact List.mem_map.mp (not_not.mp taken)
  · cases failed

theorem put_taken {old : ObjectRecord Message} (member : old ∈ objects) (same : old.id = Stored.objectId message) :
    objects.put nowMs message = .ok (objects.replace message) := by
  unfold put
  rw [dif_neg]
  exact not_not.mpr (List.mem_map.mpr ⟨old, member, same⟩)

theorem getByName_some {objectType name : String} :
    objects.getByName objectType name = some record ↔
      record ∈ objects ∧ record.objectType = objectType ∧ record.name = name := by
  unfold getByName
  constructor
  · intro found
    have same : record.key = (objectType, name) := by simpa using List.find?_some found
    exact ⟨List.mem_of_find?_eq_some found, congrArg Prod.fst same, congrArg Prod.snd same⟩
  · rintro ⟨member, rfl, rfl⟩
    cases found : objects.table.rows.find? fun other => other.key = (record.objectType, record.name) with
    | none => simpa [ObjectRecord.key] using List.find?_eq_none.mp found record member
    | some other =>
      have held := List.find?_some found
      have same : other.key = record.key := of_decide_eq_true held
      rw [List.inj_on_of_nodup_map objects.named (List.mem_of_find?_eq_some found) member same]

theorem getByName_none {objectType name : String} :
    objects.getByName objectType name = none ↔ ∀ old ∈ objects, old.key ≠ (objectType, name) := by
  unfold getByName
  rw [List.find?_eq_none]
  exact forall₂_congr fun old _ => by simp

theorem mem_ofType {objectType : String} :
    record ∈ objects.ofType objectType ↔ record ∈ objects ∧ record.objectType = objectType := by
  simp [ofType, mem_rows]

theorem ranks_distinct (objects : Objects Message) (objectType : String) :
    ((objects.ofType objectType).map ObjectRecord.rank).Nodup := by
  rw [List.Nodup, List.pairwise_map]
  have apart : (objects.ofType objectType).Pairwise fun first second => first.key ≠ second.key :=
    (List.pairwise_map.mp objects.named).sublist List.filter_sublist
  refine apart.imp_of_mem ?_
  intro first second firstIn secondIn differ same
  apply differ
  have sameType := (mem_ofType.mp firstIn).2.trans (mem_ofType.mp secondIn).2.symm
  exact Prod.ext sameType (congrArg (fun rank : Int ×ₗ String => (ofLex rank).2) same)

/-- A record is on the first page of its type when fewer records of that type than the page holds come before it. -/
theorem mem_firstPage {objectType : String} {limit : Nat} :
    record ∈ objects.list objectType limit 0 ↔ record ∈ objects ∧ record.objectType = objectType ∧
      Pages.earlier ObjectRecord.rank (objects.ofType objectType) record.rank < limit := by
  rw [list, List.drop_zero]
  constructor
  · intro listed
    have member := Pages.mem_sorted.mp (List.mem_of_mem_take listed)
    exact ⟨(mem_ofType.mp member).1, (mem_ofType.mp member).2,
      (Pages.mem_page_iff (objects.ranks_distinct objectType) member limit).mp listed⟩
  · rintro ⟨present, sameType, early⟩
    have member := mem_ofType.mpr ⟨present, sameType⟩
    exact (Pages.mem_page_iff (objects.ranks_distinct objectType) member limit).mpr early

end Objects

end OpenShell.Server
