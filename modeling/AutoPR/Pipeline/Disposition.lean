import AutoPR.Pipeline.Terminates
import AutoPR.Routing.Totality

/-! What a run hands to the router, and whether the router answers to it. The texts that the
nodes write themselves can be rendered; what they pass on from a model need not be. -/
namespace AutoPR.Pipeline
open Python Workflow Routing Liveness

structure OwnTexts (state : PRState) : Prop where
  tests : isTextual (state.generatedTests.getD (.str "")) = true
  fix : isTextual (state.proposedFix.getD (.str "")) = true
  output : isTextual (state.verificationOutput.getD (.str "")) = true

/-- The parts of a state that come from a model can be rendered. -/
def legible (state : PRState) : Bool :=
  if state.isCi then isTextual (state.failureDiagnosis.getD (.str ""))
  else isTextual (state.summary.getD (.str "")) &&
    areFindings (state.reviewFindings.getD (.list []))

theorem isTextual_str (s : String) : isTextual (.str s) = true := by simp [isTextual, isText]

theorem textual_of_missing {diagnosis : Option PyVal}
    (h : (diagnosis.getD .none).truthy = false) :
    isTextual (diagnosis.getD (.str "")) = true := by
  cases diagnosis with
  | none => exact isTextual_str ""
  | some v =>
    unfold isTextual
    rw [Option.getD_some] at h ⊢
    rw [h]
    rfl

theorem OwnTexts.renders_iff {state : PRState} (own : OwnTexts state) :
    renders state = true ↔ legible state = true := by
  unfold renders legible
  dsimp only
  rw [own.tests, own.fix, own.output, Bool.and_true, Bool.and_true]
  cases state.isCi with
  | false => rfl
  | true =>
    rw [if_pos rfl, if_pos rfl]
    split
    · rfl
    · rw [Bool.or_eq_true, Bool.and_eq_true, Bool.not_eq_true']
      constructor
      · rintro (h | ⟨-, hmissing⟩)
        · exact h
        · exact textual_of_missing hmissing
      · exact Or.inl

section
variable {cfg : PipelineSettings} {thread after : Thread} {a : Answer} {n : Node}

theorem NodeMove.ownTexts (h : NodeMove cfg thread a n after)
    (own : OwnTexts thread.state.toPRState) : OwnTexts after.state.toPRState := by
  cases h with
  | review | diagnose | decide => exact ⟨own.tests, own.fix, own.output⟩
  | tests text => exact ⟨isTextual_str text, own.fix, own.output⟩
  | fix text => exact ⟨own.tests, isTextual_str text, own.output⟩
  | verify => exact ⟨own.tests, own.fix, isTextual_str _⟩

theorem handlerState_ownTexts (job : Jobs.PRJob) (files : List ChangedFile)
    (snapshot : Snapshot) : OwnTexts (handlerState job files snapshot).toPRState := by
  unfold handlerState
  split
  · exact ⟨isTextual_str "", isTextual_str "", isTextual_str ""⟩
  · exact ⟨isTextual_str "", isTextual_str "", isTextual_str ""⟩

variable {job : Jobs.PRJob} {files : List ChangedFile} {snapshot : Snapshot}
  {answers : ℕ → Answer}

theorem jobWalk_ownTexts (k : ℕ) :
    OwnTexts (jobWalk cfg job files snapshot answers k).state.state.toPRState := by
  unfold jobWalk
  apply Graph.walk_invariant (I := fun w : Walk Node Thread => OwnTexts w.state.state.toPRState)
  · exact handlerState_ownTexts job files snapshot
  · intro w n a own _
    cases hrun : (graph cfg).run n w.state a with
    | none => rwa [Graph.visit_of_raise hrun]
    | some after =>
      rw [Graph.visit_of_run hrun]
      exact (runNode_move hrun).ownTexts own

end

/-- The run comes to the router with this state. -/
def Hands (cfg : PipelineSettings) (job : Jobs.PRJob) (files : List ChangedFile)
    (snapshot : Snapshot) (answers : ℕ → Answer) (handed : PRState) : Prop :=
  ∃ k, (jobWalk cfg job files snapshot answers k).stage = .due .router ∧
    (jobWalk cfg job files snapshot answers k).state.state.toPRState = handed

/-- The router answers to what a run hands to it, whatever the database and the client do,
exactly when what the models have returned is legible and no review is posted without a store. -/
theorem router_answers_iff (cfg : PipelineSettings) (job : Jobs.PRJob)
    (files : List ChangedFile) (snapshot : Snapshot) (answers : ℕ → Answer) (stored : Bool)
    (r : RouterId) (handed : PRState) (h : Hands cfg job files snapshot answers handed) :
    (∃ decision, route cfg.routing handed = .ok decision ∧
      Inevitable (routerNext cfg.routing r) (Answers decision)
        (startRun cfg.routing handed stored)) ↔
    legible handed = true ∧ (stored = true ∨ actsAtOnce cfg.routing handed = false) := by
  obtain ⟨k, -, rfl⟩ := h
  rw [startRun_answers_iff, (jobWalk_ownTexts k).renders_iff]

def loadsReviews (text : String) : Webhook.Loaded :=
  if text = "texts" then .value (.dict [("findings", .list [.str "unused import"])])
  else if text = "objects" then
    .value (.dict [("findings", .list [.dict [("message", .str "unused import")]])])
  else .decodeError

/-- The model answers with this review, then with a test. -/
def reviewAnswers (review : String) : ℕ → Answer
  | 0 => ⟨some (.str review), finished 0⟩
  | _ => ⟨some (.str "assert True"), finished 0⟩

def PipelineSettings.reviews : PipelineSettings :=
  { PipelineSettings.small with loads := loadsReviews }

def openedJob : Jobs.PRJob := { failedJob with event := "pull_request" }

def openedRun (review : String) : Walk Node Thread :=
  jobWalk .reviews openedJob [⟨"a.py", "+import os"⟩] [] (reviewAnswers review) 2

def openedState (review : String) : PRState := (openedRun review).state.state.toPRState

theorem router_answers_iff_objects :
    (∃ decision, route PipelineSettings.reviews.routing (openedState "objects") = .ok decision ∧
      Inevitable (routerNext PipelineSettings.reviews.routing 0) (Answers decision)
        (startRun PipelineSettings.reviews.routing (openedState "objects") true)) ↔
    legible (openedState "objects") = true ∧ (true = true ∨
      actsAtOnce PipelineSettings.reviews.routing (openedState "objects") = false) :=
  router_answers_iff .reviews openedJob [⟨"a.py", "+import os"⟩] [] (reviewAnswers "objects")
    true 0 (openedState "objects") ⟨2, by decide, rfl⟩

/-- A finding that is a text raises out of the node. -/
theorem text_finding_raises :
    Hands .reviews openedJob [⟨"a.py", "+import os"⟩] [] (reviewAnswers "texts")
      (openedState "texts") ∧
    startRun PipelineSettings.reviews.routing (openedState "texts") true = .raised ∧
    ¬ ∃ decision, route PipelineSettings.reviews.routing (openedState "texts") = .ok decision ∧
      Inevitable (routerNext PipelineSettings.reviews.routing 0) (Answers decision)
        (startRun PipelineSettings.reviews.routing (openedState "texts") true) := by
  refine ⟨⟨2, by decide, rfl⟩, rfl, ?_⟩
  rw [startRun_answers_iff]
  decide

end AutoPR.Pipeline
