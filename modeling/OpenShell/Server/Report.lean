import OpenShell.Server.Drafts

namespace OpenShell.Server

open OpenShell.Policy Effects Effects.Fallible

variable {Blob : Type}

structure ReportPolicyStatusRequest where
  sandboxId : String
  version : UInt32
  status : Int32
  loadError : String := ""

def ReportPolicyStatusRequest.reported (request : ReportPolicyStatusRequest) : Option PolicyStatus :=
  if request.status = 2 then some .loaded
  else if request.status = 3 then some .failed
  else none

def loadTime (status : PolicyStatus) : Handler Blob (Option Int) :=
  if status = .loaded then do
    let nowMs ← decisionTime
    pure (some nowMs)
  else pure none

/-- What a loaded report does besides the status: both writes may fail without the call failing. -/
def recordLoaded (sandboxId : String) (version : UInt32) : Handler Blob Unit := do
  let _ ← ask (.supersedeOlderPolicies sandboxId version.toNat)
  let found ← ask (.getSandbox sandboxId)
  match found with
  | Except.ok (some sandbox) =>
    let _ ← ask (.putSandbox { sandbox with currentPolicyVersion := version })
    pure ()
  | _ => pure ()

def handleReportPolicyStatus (request : ReportPolicyStatusRequest) : Handler Blob Unit := do
  ensure (!request.sandboxId.isEmpty) ⟨.invalidArgument, "sandbox_id is required"⟩
  ensure (request.version ≠ 0) ⟨.invalidArgument, "version is required"⟩
  let status ← orElse ⟨.invalidArgument, "status must be LOADED or FAILED"⟩ request.reported
  let loadedAtMs ← loadTime status
  let loadError := if status = .failed && !request.loadError.isEmpty then some request.loadError else none
  let updated ← orInternal "update policy status failed"
    (← ask (.updatePolicyStatus request.sandboxId request.version.toNat status loadError loadedAtMs))
  ensure updated ⟨.notFound, "policy revision not found"⟩
  if status = .loaded then recordLoaded request.sandboxId request.version
  else pure ()

end OpenShell.Server
