import AutoPR.Library.Workflow
import AutoPR.Pipeline.Verifier
import AutoPR.Tenancy.Suspension

/-! The graph of the pipeline and what the worker hands to it. Results are merged by overwriting
keys. What the router does with its decision is `Routing.routerStep`; here it only decides. -/
namespace AutoPR.Pipeline
open Python Workflow

inductive Node where
  | codeReviewer
  | testGenerator
  | ciMonitor
  | fixAgent
  | fixVerifier
  | router
deriving DecidableEq, Repr

/-- What the outside has for the node that runs next. -/
structure Answer where
  message : Message
  sandbox : SandboxOutcome

structure Thread where
  state : PipelineState
  calls : List Verification := []

def retryableReasons : List String := ["check_failed", "patch_apply_failed", "timeout"]

def isCiFailureEvent (state : PipelineState) : Bool :=
  (state.ciLogs.getD .none).truthy || (state.ciEvent.getD .none).truthy

def entryRouter (state : PipelineState) : Node :=
  if isCiFailureEvent state then .ciMonitor else .codeReviewer

def afterCiMonitor (state : PipelineState) : Node :=
  if (state.failureType.getD (.str "unknown")).eqStr "unknown" then .router else .fixAgent

def afterFixVerifier (cfg : PipelineSettings) (state : PipelineState) : Node :=
  if (state.fixVerified.getD .none).truthy then .router
  else
    let reason := state.verificationReason.getD (.str "")
    let attempts := state.fixAttempts.getD 0
    if retryableReasons.any reason.eqStr && decide (attempts < cfg.maxFixAttempts) then .fixAgent
    else .router

def Thread.verify (u : Unicode) (thread : Thread) (sandbox : SandboxOutcome) : Thread :=
  let v := verifyFix u sandbox thread.state
  ⟨thread.state.withVerdict v, thread.calls ++ v.call.toList⟩

def runNode (cfg : PipelineSettings) (n : Node) (thread : Thread) (a : Answer) : Option Thread :=
  match n with
  | .codeReviewer => (codeReviewerNode cfg a.message thread.state).map ({ thread with state := · })
  | .testGenerator => (testGeneratorNode a.message thread.state).map ({ thread with state := · })
  | .ciMonitor => (ciMonitorNode cfg a.message thread.state).map ({ thread with state := · })
  | .fixAgent => (fixAgentNode a.message thread.state).map ({ thread with state := · })
  | .fixVerifier => some (thread.verify cfg.unicode a.sandbox)
  | .router => (Routing.route cfg.routing thread.state.toPRState).toOption.map fun _ => thread

def nextNode (cfg : PipelineSettings) (n : Node) (thread : Thread) : Option Node :=
  match n with
  | .codeReviewer => some .testGenerator
  | .testGenerator => some .router
  | .ciMonitor => some (afterCiMonitor thread.state)
  | .fixAgent => some .fixVerifier
  | .fixVerifier => some (afterFixVerifier cfg thread.state)
  | .router => none

def graph (cfg : PipelineSettings) : Graph Node Thread Answer where
  entry thread := entryRouter thread.state
  run := runNode cfg
  next := nextNode cfg

def ciJobEvents : List String := ["check_run", "workflow_run"]

def isCiJob (job : Jobs.PRJob) : Bool := job.event ∈ ciJobEvents

def handlerState (job : Jobs.PRJob) (changedFiles : List ChangedFile) (snapshot : Snapshot) :
    PipelineState :=
  if isCiJob job then
    { toPRState := Tenancy.jobState job {
        ciEvent := some (.str job.event)
        ciLogs := some (.str (job.eventContext.getD "")) }
      changedFiles := changedFiles
      repoSnapshot := some snapshot }
  else { toPRState := Tenancy.jobState job {}, changedFiles := changedFiles }

/-- The run of a job. -/
def jobWalk (cfg : PipelineSettings) (job : Jobs.PRJob) (changedFiles : List ChangedFile)
    (snapshot : Snapshot) (answers : ℕ → Answer) (k : ℕ) : Walk Node Thread :=
  (graph cfg).walk ⟨handlerState job changedFiles snapshot, []⟩ answers k

theorem jobWalk_reviewed {cfg : PipelineSettings} {job : Jobs.PRJob} {files : List ChangedFile}
    {snapshot : Snapshot} {answers : ℕ → Answer} {reviewed tested : PipelineState}
    (hentry : entryRouter (handlerState job files snapshot) = .codeReviewer)
    (hreview : codeReviewerNode cfg (answers 0).message (handlerState job files snapshot) =
      some reviewed)
    (htests : testGeneratorNode (answers 1).message reviewed = some tested) :
    jobWalk cfg job files snapshot answers 2 =
      ⟨⟨tested, []⟩, .due .router, [.codeReviewer, .testGenerator]⟩ := by
  have hstart : jobWalk cfg job files snapshot answers 0 =
      ⟨⟨handlerState job files snapshot, []⟩, .due .codeReviewer, []⟩ := by
    rw [← hentry]
    rfl
  have hfirst : jobWalk cfg job files snapshot answers 1 =
      ⟨⟨reviewed, []⟩, .due .testGenerator, [.codeReviewer]⟩ := by
    have hdue : (jobWalk cfg job files snapshot answers 0).stage = .due .codeReviewer := by
      rw [hstart]
    refine (Graph.walk_succ hdue).trans ?_
    change (graph cfg).visit .codeReviewer (jobWalk cfg job files snapshot answers 0) _ = _
    rw [hstart, @Graph.visit_of_run _ _ _ (graph cfg) _ _ _ ⟨reviewed, []⟩]
    · rfl
    · change (codeReviewerNode cfg _ _).map _ = _
      rw [hreview]
      rfl
  have hdue : (jobWalk cfg job files snapshot answers 1).stage = .due .testGenerator := by
    rw [hfirst]
  refine (Graph.walk_succ hdue).trans ?_
  change (graph cfg).visit .testGenerator (jobWalk cfg job files snapshot answers 1) _ = _
  rw [hfirst, @Graph.visit_of_run _ _ _ (graph cfg) _ _ _ ⟨tested, []⟩]
  · rfl
  · change (testGeneratorNode _ _).map _ = _
    rw [htests]
    rfl

end AutoPR.Pipeline
