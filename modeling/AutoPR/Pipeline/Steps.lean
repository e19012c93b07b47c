import AutoPR.Pipeline.Graph

/-! What one node of the pipeline can do to the state. -/
namespace AutoPR.Pipeline
open Python Workflow

variable {cfg : PipelineSettings} {message : Message} {s t : PipelineState}

theorem label_mem (u : Unicode) {labels : List String} {fallback : String} (v : PyVal)
    (h : fallback ∈ labels) : label u labels fallback v ∈ labels := by
  unfold label
  dsimp only
  split
  · assumption
  · exact h

theorem codeReviewerNode_spec (h : codeReviewerNode cfg message s = some t) :
    ∃ findings risk summary, hasLength findings = true ∧ risk ∈ validRisk ∧
      t = { s with
        reviewFindings := some findings
        riskScore := some (.str risk)
        summary := some summary } := by
  unfold codeReviewerNode at h
  simp only [Option.bind_eq_bind, Option.bind_eq_some_iff] at h
  obtain ⟨data, -, risk, -, findings, -, summary, -, h⟩ := h
  split at h
  · rename_i hlength
    cases h
    exact ⟨findings, _, summary, hlength, label_mem _ risk (by decide), rfl⟩
  · cases h

theorem testGeneratorNode_spec (h : testGeneratorNode message s = some t) :
    ∃ tests, t = { s with generatedTests := some (.str tests) } := by
  unfold testGeneratorNode at h
  simp only [Option.bind_eq_bind, Option.bind_eq_some_iff] at h
  obtain ⟨text, -, h⟩ := h
  cases h
  exact ⟨_, rfl⟩

theorem ciMonitorNode_spec (h : ciMonitorNode cfg message s = some t) :
    ∃ ftype diagnosis excerpt, ftype ∈ failureTypes ∧
      t = { s with
        failureType := some (.str ftype)
        failureDiagnosis := some diagnosis
        failureExcerpt := some excerpt } := by
  unfold ciMonitorNode at h
  simp only [Option.bind_eq_bind, Option.bind_eq_some_iff] at h
  obtain ⟨logs, -, h⟩ := h
  split at h
  · cases h
    exact ⟨"unknown", _, _, by decide, rfl⟩
  · simp only [Option.bind_eq_some_iff] at h
    obtain ⟨data, -, ftype, -, diagnosis, -, excerpt, -, h⟩ := h
    cases h
    exact ⟨_, diagnosis, excerpt, label_mem _ ftype (by decide), rfl⟩

theorem fixAgentNode_spec (h : fixAgentNode message s = some t) :
    ∃ fix, (fix = "" ∨ ∃ text, answerText message = some text ∧ fix = readFix text) ∧
      t = { s with
        proposedFix := some (.str fix)
        fixAttempts := some (s.fixAttempts.getD 0 + 1) } := by
  unfold fixAgentNode at h
  dsimp only at h
  split at h
  · cases h
    exact ⟨"", .inl rfl, rfl⟩
  · simp only [Option.bind_eq_bind, Option.bind_eq_some_iff] at h
    obtain ⟨text, htext, h⟩ := h
    cases h
    exact ⟨_, .inr ⟨text, htext, rfl⟩, rfl⟩

structure SameJob (s t : PipelineState) : Prop where
  repo : t.repo = s.repo
  prNumber : t.prNumber = s.prNumber
  commitSha : t.commitSha = s.commitSha
  installationId : t.installationId = s.installationId
  ciLogs : t.ciLogs = s.ciLogs
  ciEvent : t.ciEvent = s.ciEvent
  changedFiles : t.changedFiles = s.changedFiles
  repoSnapshot : t.repoSnapshot = s.repoSnapshot

theorem SameJob.refl (s : PipelineState) : SameJob s s := by
  constructor <;> rfl

theorem SameJob.trans {r s t : PipelineState} (first : SameJob r s) (second : SameJob s t) :
    SameJob r t where
  repo := second.repo.trans first.repo
  prNumber := second.prNumber.trans first.prNumber
  commitSha := second.commitSha.trans first.commitSha
  installationId := second.installationId.trans first.installationId
  ciLogs := second.ciLogs.trans first.ciLogs
  ciEvent := second.ciEvent.trans first.ciEvent
  changedFiles := second.changedFiles.trans first.changedFiles
  repoSnapshot := second.repoSnapshot.trans first.repoSnapshot

theorem SameJob.isCiFailureEvent (h : SameJob s t) : isCiFailureEvent t = isCiFailureEvent s := by
  unfold Pipeline.isCiFailureEvent
  rw [h.ciLogs, h.ciEvent]

inductive NodeMove (cfg : PipelineSettings) (thread : Thread) (a : Answer) : Node → Thread → Prop
  | review (findings : PyVal) (risk : String) (summary : PyVal)
      (hlength : hasLength findings = true) (hrisk : risk ∈ validRisk) :
      NodeMove cfg thread a .codeReviewer { thread with
        state := { thread.state with
          reviewFindings := some findings
          riskScore := some (.str risk)
          summary := some summary } }
  | tests (tests : String) :
      NodeMove cfg thread a .testGenerator { thread with
        state := { thread.state with generatedTests := some (.str tests) } }
  | diagnose (ftype : String) (diagnosis excerpt : PyVal) (hftype : ftype ∈ failureTypes) :
      NodeMove cfg thread a .ciMonitor { thread with
        state := { thread.state with
          failureType := some (.str ftype)
          failureDiagnosis := some diagnosis
          failureExcerpt := some excerpt } }
  | fix (fix : String)
      (hfix : fix = "" ∨ ∃ text, answerText a.message = some text ∧ fix = readFix text) :
      NodeMove cfg thread a .fixAgent { thread with
        state := { thread.state with
          proposedFix := some (.str fix)
          fixAttempts := some (thread.state.fixAttempts.getD 0 + 1) } }
  | verify : NodeMove cfg thread a .fixVerifier (thread.verify cfg.unicode a.sandbox)
  | decide (decision : Routing.RoutingDecision)
      (hroute : Routing.route cfg.routing thread.state.toPRState = .ok decision) :
      NodeMove cfg thread a .router thread

variable {thread after : Thread} {a : Answer} {n : Node}

theorem runNode_move (h : runNode cfg n thread a = some after) :
    NodeMove cfg thread a n after := by
  unfold runNode at h
  cases n with
  | codeReviewer =>
    obtain ⟨t, ht, rfl⟩ := Option.map_eq_some_iff.mp h
    obtain ⟨findings, risk, summary, hlength, hrisk, rfl⟩ := codeReviewerNode_spec ht
    exact .review findings risk summary hlength hrisk
  | testGenerator =>
    obtain ⟨t, ht, rfl⟩ := Option.map_eq_some_iff.mp h
    obtain ⟨tests, rfl⟩ := testGeneratorNode_spec ht
    exact .tests tests
  | ciMonitor =>
    obtain ⟨t, ht, rfl⟩ := Option.map_eq_some_iff.mp h
    obtain ⟨ftype, diagnosis, excerpt, hftype, rfl⟩ := ciMonitorNode_spec ht
    exact .diagnose ftype diagnosis excerpt hftype
  | fixAgent =>
    obtain ⟨t, ht, rfl⟩ := Option.map_eq_some_iff.mp h
    obtain ⟨fix, hfix, rfl⟩ := fixAgentNode_spec ht
    exact .fix fix hfix
  | fixVerifier =>
    cases h
    exact .verify
  | router =>
    obtain ⟨decision, hroute, rfl⟩ := Option.map_eq_some_iff.mp h
    cases hdecision : Routing.route cfg.routing thread.state.toPRState with
    | error e =>
      rw [hdecision] at hroute
      cases hroute
    | ok d => exact .decide d hdecision

theorem NodeMove.sameJob (h : NodeMove cfg thread a n after) :
    SameJob thread.state after.state := by
  cases h <;> constructor <;> rfl

theorem afterCiMonitor_eq (state : PipelineState) :
    afterCiMonitor state = .router ∨ afterCiMonitor state = .fixAgent := by
  unfold afterCiMonitor
  split
  · exact .inl rfl
  · exact .inr rfl

theorem afterFixVerifier_eq (cfg : PipelineSettings) (state : PipelineState) :
    afterFixVerifier cfg state = .router ∨
      afterFixVerifier cfg state = .fixAgent ∧ state.fixAttempts.getD 0 < cfg.maxFixAttempts := by
  unfold afterFixVerifier
  split
  · exact .inl rfl
  · dsimp only
    split
    · rename_i hretry
      simp only [Bool.and_eq_true, decide_eq_true_eq] at hretry
      exact .inr ⟨rfl, hretry.2⟩
    · exact .inl rfl

inductive Edge : Node → Node → Prop
  | reviewed : Edge .codeReviewer .testGenerator
  | tested : Edge .testGenerator .router
  | undiagnosed : Edge .ciMonitor .router
  | diagnosed : Edge .ciMonitor .fixAgent
  | fixed : Edge .fixAgent .fixVerifier
  | settled : Edge .fixVerifier .router
  | again : Edge .fixVerifier .fixAgent

theorem nextNode_edge {m : Node} (h : nextNode cfg n after = some m) : Edge n m := by
  cases n with
  | codeReviewer =>
    cases h
    exact .reviewed
  | testGenerator =>
    cases h
    exact .tested
  | ciMonitor =>
    have hnext : afterCiMonitor after.state = m := Option.some.inj h
    cases afterCiMonitor_eq after.state with
    | inl hrouter =>
      cases hrouter.symm.trans hnext
      exact .undiagnosed
    | inr hfix =>
      cases hfix.symm.trans hnext
      exact .diagnosed
  | fixAgent =>
    cases h
    exact .fixed
  | fixVerifier =>
    have hnext : afterFixVerifier cfg after.state = m := Option.some.inj h
    cases afterFixVerifier_eq cfg after.state with
    | inl hrouter =>
      cases hrouter.symm.trans hnext
      exact .settled
    | inr hagain =>
      cases hagain.1.symm.trans hnext
      exact .again
  | router => cases h

end AutoPR.Pipeline
