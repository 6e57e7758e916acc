import OpenShell.Lib.Text

namespace OpenShell.PathNames

open Text

/-! A path as its components, and a buffer that paths are pushed into. -/

inductive Component where
  | rootDir
  | curDir
  | parentDir
  | normal (name : List Char)
deriving DecidableEq

/-- What a part between two separators stands for. The empty part and the single dot stand for nothing. -/
def parseSingleComponent : List Char → Option Component
  | [] => none
  | ['.'] => none
  | ['.', '.'] => some .parentDir
  | name => some (.normal name)

def bodyComponents (path : List Char) : List Component := (split '/' path).filterMap parseSingleComponent

def hasRoot (path : List Char) : Bool := path.head? = some '/'

/-- A dot that a relative path starts with is a component. -/
def includeCurDir (path : List Char) : Bool := path = ['.'] || ['.', '/'].isPrefixOf path

def components (path : List Char) : List Component :=
  if hasRoot path then .rootDir :: bodyComponents path
  else (if includeCurDir path then [.curDir] else []) ++ bodyComponents path

/-- A path with a root replaces the buffer, any other one is put behind a separator. -/
def push (buffer path : List Char) : List Char :=
  if hasRoot path then path
  else if buffer = [] ∨ buffer.getLast? = some '/' then buffer ++ path
  else buffer ++ '/' :: path

/-- The parts that stand for a component. -/
def names (path : List Char) : List (List Char) :=
  (split '/' path).filter fun part => part ≠ [] ∧ part ≠ ['.']

def Component.name : Component → List Char
  | .rootDir => ['/']
  | .curDir => ['.']
  | .parentDir => ['.', '.']
  | .normal name => name

section Names

variable {path part name : List Char} {parts : List (List Char)}

theorem mem_names : name ∈ names path ↔ name ∈ split '/' path ∧ name ≠ [] ∧ name ≠ ['.'] := by
  rw [names, List.mem_filter, decide_eq_true_eq]

theorem parseSingleComponent_eq_none : parseSingleComponent part = none ↔ part = [] ∨ part = ['.'] := by
  unfold parseSingleComponent
  split <;> simp_all

theorem name_of_parsed {component : Component} (parsed : parseSingleComponent part = some component) :
    component.name = part := by
  unfold parseSingleComponent at parsed
  split at parsed <;> cases parsed <;> rfl

/-- The components behind the root are the names, in their order. -/
theorem bodyComponents_name (path : List Char) : (bodyComponents path).map Component.name = names path := by
  unfold bodyComponents names
  induction split '/' path with
  | nil => rfl
  | cons part parts ih =>
    cases parsed : parseSingleComponent part with
    | none =>
      have skipped : ¬ (part ≠ [] ∧ part ≠ ['.']) := by
        have ends := parseSingleComponent_eq_none.mp parsed
        tauto
      rw [List.filterMap_cons_none parsed, ih, List.filter_cons_of_neg (by simpa using skipped)]
    | some component =>
      have kept : part ≠ [] ∧ part ≠ ['.'] := by
        rw [← not_or]
        intro ends
        rw [parseSingleComponent_eq_none.mpr ends] at parsed
        cases parsed
      rw [List.filterMap_cons_some parsed, List.map_cons, ih, List.filter_cons_of_pos (by simpa using kept),
        name_of_parsed parsed]

theorem hasRoot_name (member : name ∈ names path) : hasRoot name = false := by
  obtain ⟨inside, filled, _⟩ := mem_names.mp member
  have plain := notMem_of_mem_split inside
  cases name with
  | nil => exact absurd rfl filled
  | cons c rest =>
    have other : c ≠ '/' := fun same => plain (same ▸ List.mem_cons_self ..)
    simp [hasRoot, other]

end Names

/-! The normal form of a path: its root, and its names with one separator between any two. -/

section NormalForm

variable {path buffer : List Char} {parts : List (List Char)}

def normalForm (path : List Char) : List Char := (if hasRoot path then ['/'] else []) ++ join ['/'] (names path)

theorem push_name {name : List Char} (relative : hasRoot name = false) (filled : buffer ≠ [])
    (last : buffer.getLast? ≠ some '/') : push buffer name = buffer ++ '/' :: name := by
  simp [push, relative, filled, last]

theorem getLast_name {name : List Char} (member : name ∈ names path) (buffer : List Char) :
    (buffer ++ name).getLast? ≠ some '/' := by
  obtain ⟨inside, filled, _⟩ := mem_names.mp member
  intro last
  rw [List.getLast?_append_of_ne_nil _ filled] at last
  exact notMem_of_mem_split inside (List.mem_of_getLast? last)

theorem foldl_push_join (first : List Char) (rest : List (List Char)) (inPath : ∀ name ∈ first :: rest, name ∈ names path)
    (buffer : List Char) : rest.foldl push (buffer ++ first) = buffer ++ join ['/'] (first :: rest) := by
  induction rest generalizing first buffer with
  | nil => simp [join]
  | cons next rest ih =>
    have here := inPath first (List.mem_cons_self ..)
    have filled : buffer ++ first ≠ [] := by
      intro empty
      exact (mem_names.mp here).2.1 (List.append_eq_nil_iff.mp empty).2
    have pushed := push_name (hasRoot_name (inPath next (by simp))) filled (getLast_name here buffer)
    have shape : buffer ++ first ++ '/' :: next = (buffer ++ first ++ ['/']) ++ next := by simp
    rw [List.foldl_cons, pushed, shape, ih next (fun name member => inPath name (List.mem_cons_of_mem _ member)),
      join_cons_cons]
    simp

/-- Pushing the names of a path one by one onto the root, or onto an empty buffer, gives its normal form. -/
theorem foldl_push_names (path : List Char) :
    (names path).foldl push (if hasRoot path then ['/'] else []) = normalForm path := by
  have start : ∀ name ∈ names path, push (if hasRoot path then ['/'] else []) name =
      (if hasRoot path then ['/'] else []) ++ name := by
    intro name member
    have relative := hasRoot_name member
    cases rooted : hasRoot path <;> simp [push, relative]
  unfold normalForm
  cases named : names path with
  | nil => simp [join]
  | cons first rest =>
    rw [List.foldl_cons, start first (by simp [named])]
    exact foldl_push_join first rest (fun name member => named ▸ member) _

theorem names_root (path : List Char) : names ('/' :: path) = names path := by
  have cut : split '/' ('/' :: path) = [] :: split '/' path := by
    rw [split_eq_splitOn, split_eq_splitOn, List.splitOn_cons_eq_if_modifyHead, if_pos (beq_self_eq_true _)]
  unfold names
  rw [cut, List.filter_cons_of_neg (by simp)]

theorem names_join (whole : ∀ name ∈ parts, '/' ∉ name ∧ name ≠ [] ∧ name ≠ ['.']) :
    names (join ['/'] parts) = parts := by
  cases parts with
  | nil => decide
  | cons first rest =>
    unfold names
    rw [split_join (List.cons_ne_nil _ _) (fun name member => (whole name member).1), List.filter_eq_self]
    intro name member
    exact decide_eq_true (whole name member).2

theorem whole_names (path : List Char) : ∀ name ∈ names path, '/' ∉ name ∧ name ≠ [] ∧ name ≠ ['.'] := by
  intro name member
  obtain ⟨inside, named⟩ := mem_names.mp member
  exact ⟨notMem_of_mem_split inside, named⟩

theorem names_normalForm (path : List Char) : names (normalForm path) = names path := by
  have whole := whole_names path
  unfold normalForm
  cases hasRoot path with
  | true => exact (names_root _).trans (names_join whole)
  | false => exact names_join whole

theorem hasRoot_join (path : List Char) : hasRoot (join ['/'] (names path)) = false := by
  cases named : names path with
  | nil => rfl
  | cons first rest =>
    have member : first ∈ names path := by simp [named]
    have relative := hasRoot_name member
    have filled := (mem_names.mp member).2.1
    obtain ⟨c, text, rfl⟩ := List.exists_cons_of_ne_nil filled
    cases rest with
    | nil => exact relative
    | cons next rest =>
      rw [join_cons_cons]
      exact relative

theorem hasRoot_normalForm (path : List Char) : hasRoot (normalForm path) = hasRoot path := by
  unfold normalForm
  cases rooted : hasRoot path with
  | true => rfl
  | false => exact hasRoot_join path

theorem normalForm_normalForm (path : List Char) : normalForm (normalForm path) = normalForm path := by
  conv_lhs => rw [normalForm, hasRoot_normalForm, names_normalForm]
  rfl

theorem normalForm_eq_root : normalForm path = ['/'] ↔ hasRoot path ∧ names path = [] := by
  constructor
  · intro root
    have rooted := hasRoot_normalForm path
    have named := names_normalForm path
    rw [root] at rooted named
    exact ⟨rooted.symm, named.symm⟩
  · rintro ⟨rooted, unnamed⟩
    simp [normalForm, rooted, unnamed, join]

end NormalForm

end OpenShell.PathNames
