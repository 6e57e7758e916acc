import OpenShell.Policy.Model

namespace OpenShell.Policy

def maxFilesystemPaths : Nat := 256

def maxPathLength : Nat := 4096

inductive PolicyViolation where
  | invalidProcessIdentity (field value : String)
  | pathTraversal (path : String)
  | relativePath (path : String)
  | overlyBroadPath (path : String)
  | fieldTooLong (path : String) (length : Nat)
  | tooManyPaths (count : Nat)
deriving DecidableEq

def PolicyViolation.text : PolicyViolation → String
  | .invalidProcessIdentity field value => field ++ " must be 'sandbox', got '" ++ value ++ "'"
  | .pathTraversal path => "path contains '..' traversal component: " ++ path
  | .relativePath path => "path must be absolute (start with '/'): " ++ path
  | .overlyBroadPath path => "read-write path is overly broad: " ++ path
  | .fieldTooLong path length =>
    "path exceeds maximum length (" ++ toString length ++ " > " ++ toString maxPathLength ++ "): " ++ path
  | .tooManyPaths count =>
    "too many filesystem paths (" ++ toString count ++ " > " ++ toString maxFilesystemPaths ++ ")"

def ensureSandboxProcessIdentity (policy : SandboxPolicy) : SandboxPolicy :=
  let process := policy.process.getD {}
  { policy with
    process := some
      { runAsUser := if process.runAsUser.isEmpty then "sandbox" else process.runAsUser
        runAsGroup := if process.runAsGroup.isEmpty then "sandbox" else process.runAsGroup } }

/-- The characters of `&s[..count]`; `none` is the panic when `count` is not a character boundary. -/
def slicePrefix : Nat → List Char → Option (List Char)
  | 0, _ => some []
  | _ + 1, [] => none
  | count + 1, c :: rest =>
    if c.utf8Size ≤ count + 1 then (slicePrefix (count + 1 - c.utf8Size) rest).map (c :: ·) else none

def truncateForDisplay (path : String) : Option String :=
  if path.utf8ByteSize ≤ 80 then some path
  else (slicePrefix 77 path.toList).map fun shown => String.ofList shown ++ "..."

def processViolations (policy : SandboxPolicy) : List PolicyViolation :=
  policy.process.elim [] fun process =>
    (if process.runAsUser ≠ "sandbox" then
      [.invalidProcessIdentity "run_as_user" process.runAsUser] else []) ++
    (if process.runAsGroup ≠ "sandbox" then
      [.invalidProcessIdentity "run_as_group" process.runAsGroup] else [])

def pathViolations (path : String) : Option (List PolicyViolation) :=
  if path.utf8ByteSize > maxPathLength then
    (truncateForDisplay path).map fun shown => [.fieldTooLong shown path.utf8ByteSize]
  else some
    ((if path.toList.head? = some '/' then [] else [.relativePath path]) ++
     (if (path.toList.splitOn '/').contains ['.', '.'] then [.pathTraversal path] else []))

def filesystemViolations (fs : FilesystemPolicy) : Option (List PolicyViolation) :=
  ((fs.readOnly ++ fs.readWrite).mapM pathViolations).map fun perPath =>
    (if fs.readOnly.length + fs.readWrite.length > maxFilesystemPaths then
      [.tooManyPaths (fs.readOnly.length + fs.readWrite.length)] else []) ++
    perPath.flatten ++
    (fs.readWrite.filter fun path => path.toList.all (· == '/')).map .overlyBroadPath

/-- The violations of a policy, none when it is safe; `none` when the function panics. -/
def validateSandboxPolicy (policy : SandboxPolicy) : Option (List PolicyViolation) :=
  match policy.filesystem with
  | none => some (processViolations policy)
  | some fs => (filesystemViolations fs).map (processViolations policy ++ ·)

def SandboxPolicy.Safe (policy : SandboxPolicy) : Prop := validateSandboxPolicy policy = some []

/-- The check reads the process and the filesystem section, and nothing of the network rules. -/
theorem SandboxPolicy.Safe.of_sections {first second : SandboxPolicy} (safe : first.Safe)
    (process : second.process = first.process) (filesystem : second.filesystem = first.filesystem) :
    second.Safe := by
  unfold Safe validateSandboxPolicy processViolations at safe ⊢
  rw [process, filesystem]
  exact safe

theorem SandboxPolicy.safe_default : SandboxPolicy.Safe {} := rfl

end OpenShell.Policy
