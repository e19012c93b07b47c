import AutoPR.Pipeline.Agents

/-! How a proposed patch is proved: the check that belongs to the diagnosed failure runs again in
the sandbox, with the patch applied. -/
namespace AutoPR.Pipeline
open Python

def patchFailedExit : Int := 3

def isPython (path : String) : Bool := ['.', 'p', 'y'].isSuffixOf path.toList

/-- The command that has to exit 0 exactly when the problem is resolved; `none` if no check can
run offline. -/
def verificationCommand (failureType : PyVal) (changedPaths : List String) :
    Option (List String) :=
  let paths := changedPaths.filter isPython
  let scope := if paths = [] then ["."] else paths
  if failureType.eqStr "lint" then some (["ruff", "check"] ++ scope)
  else if failureType.eqStr "type_error" then some (["mypy", "--ignore-missing-imports"] ++ scope)
  else if failureType.eqStr "test" then some ["pytest", "-q", "-p", "no:cacheprovider"]
  else if failureType.eqStr "import" then
    some ["pytest", "--collect-only", "-q", "-p", "no:cacheprovider"]
  else none

inductive Reason where
  | noFix
  | notVerifiable
  | noSnapshot
  | sandboxError
  | timeout
  | patchApplyFailed
  | passed
  | checkFailed
deriving DecidableEq, Repr

def Reason.value : Reason → String
  | .noFix => "no_fix"
  | .notVerifiable => "not_verifiable"
  | .noSnapshot => "no_snapshot"
  | .sandboxError => "sandbox_error"
  | .timeout => "timeout"
  | .patchApplyFailed => "patch_apply_failed"
  | .passed => "passed"
  | .checkFailed => "check_failed"

structure SandboxResult where
  exitCode : Option Int
  stdout : String := ""
  stderr : String := ""
  timedOut : Bool := false
deriving DecidableEq

structure Verdict where
  verified : Bool
  reason : Reason

def interpret (exitCode : Option Int) (timedOut : Bool) : Verdict :=
  if timedOut then ⟨false, .timeout⟩
  else if exitCode = some patchFailedExit then ⟨false, .patchApplyFailed⟩
  else if exitCode = some 0 then ⟨true, .passed⟩
  else ⟨false, .checkFailed⟩

theorem interpret_verified {exitCode : Option Int} {timedOut : Bool} :
    (interpret exitCode timedOut).verified = true ↔ exitCode = some 0 ∧ timedOut = false := by
  unfold interpret
  split
  · simp [*]
  · split
    · simp [*, patchFailedExit]
    · split <;> simp_all

inductive SandboxOutcome where
  | finished (result : SandboxResult)
  | raised (repr : String)
deriving DecidableEq

structure Verification where
  snapshot : Snapshot
  patch : PyVal
  command : List String
  outcome : SandboxOutcome

def outputTail : Nat := 4000

structure Verified where
  fixVerified : Bool
  reason : Reason
  output : String
  call : Option Verification := none

def unverified (reason : Reason) (output : String) : Verified where
  fixVerified := false
  reason := reason
  output := output

def SandboxOutcome.report : SandboxOutcome → Verified
  | .raised repr => unverified .sandboxError ("Sandbox could not run: " ++ repr)
  | .finished result =>
      let verdict := interpret result.exitCode result.timedOut
      { fixVerified := verdict.verified
        reason := verdict.reason
        output := takeLast outputTail (strip (result.stdout ++ "\n" ++ result.stderr)) }

/-- What `fix_verifier_node` finds, with the call it has made. -/
def verifyFix (u : Unicode) (sandbox : SandboxOutcome) (state : PipelineState) : Verified :=
  let fix := state.proposedFix.getD (.str "")
  if !fix.truthy then unverified .noFix ""
  else
    let ftype := state.failureType.getD (.str "unknown")
    match verificationCommand ftype (state.changedFiles.map (·.path)) with
    | none => unverified .notVerifiable ("No offline verification exists for failure_type=" ++
        ftype.repr u ++ "; escalating to human review.")
    | some command =>
        let snapshot := state.repoSnapshot.getD []
        if snapshot = [] then
          unverified .noSnapshot "No repo snapshot available to apply the patch."
        else { sandbox.report with call := some ⟨snapshot, fix, command, sandbox⟩ }

def PipelineState.withVerdict (state : PipelineState) (v : Verified) : PipelineState :=
  { state with
    fixVerified := some (.bool v.fixVerified)
    verificationReason := some (.str v.reason.value)
    verificationOutput := some (.str v.output) }

end AutoPR.Pipeline
