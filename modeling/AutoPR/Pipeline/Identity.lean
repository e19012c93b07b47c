import AutoPR.Pipeline.Patch
import AutoPR.Routing.Identity

/-! Keys and the work that they stand for. A job key is an event on a commit of a pull request;
its decisions leave the event out, so that jobs of one commit share a row for each action. -/
namespace AutoPR.Pipeline
open Python Transition

/-- The texts that the key joins are without its separator. -/
structure Separable (payload : Jobs.PRPayload) : Prop where
  event : '|' ∉ payload.event.toList
  repo : '|' ∉ payload.repo.toList
  commitSha : '|' ∉ payload.commitSha.toList

/-- The run routes what the pipeline has made of the job. -/
def Routes (cfg : PipelineSettings) (job : Jobs.PRJob) (run : Routing.RouterRun) : Prop :=
  ∃ files snapshot answers k, (jobWalk cfg job files snapshot answers k).stage = .due .router ∧
    run.state = (jobWalk cfg job files snapshot answers k).state.state.toPRState

/-- The jobs are about one commit. -/
structure SameCommit (job job' : Jobs.PRJob) : Prop where
  repo : job'.repo = job.repo
  prNumber : job'.prNumber = job.prNumber
  commitSha : job'.commitSha = job.commitSha

theorem jobKey_joined (sha256 : String → String) (payload : Jobs.PRPayload) :
    payload.dedupKey sha256 = sha256 ("|".intercalate
      [payload.event, payload.repo, toString payload.prNumber, payload.commitSha]) := by
  unfold Jobs.PRPayload.dedupKey
  simp only [String.intercalate_cons_cons, String.intercalate_singleton, String.append_assoc]

theorem Separable.parts {payload : Jobs.PRPayload} (h : Separable payload) :
    ∀ part ∈ [payload.event, payload.repo, toString payload.prNumber, payload.commitSha],
      '|' ∉ part.toList := by
  simp only [List.forall_mem_cons]
  exact ⟨h.event, h.repo, Delimited.not_mem_toString _ (by decide) (by decide), h.commitSha, nofun⟩

theorem jobKey_eq_iff {sha256 : String → String} (hsha : Function.Injective sha256)
    {payload payload' : Jobs.PRPayload} (h : Separable payload) (h' : Separable payload') :
    payload.dedupKey sha256 = payload'.dedupKey sha256 ↔
      payload.event = payload'.event ∧ payload.repo = payload'.repo ∧
        payload.prNumber = payload'.prNumber ∧ payload.commitSha = payload'.commitSha := by
  rw [jobKey_joined, jobKey_joined, hsha.eq_iff,
    Delimited.intercalate_inj (c := '|') rfl (List.cons_ne_nil _ _) (List.cons_ne_nil _ _)
      h.parts h'.parts]
  simp only [List.cons.injEq, and_true, Delimited.toString_inj]

theorem jobWalk_names (cfg : PipelineSettings) (job : Jobs.PRJob) (files : List ChangedFile)
    (snapshot : Snapshot) (answers : ℕ → Answer) (k : ℕ) :
    (jobWalk cfg job files snapshot answers k).state.state.toPRState.Names job.repo job.prNumber
      job.commitSha := by
  have hsame := @jobWalk_sameJob cfg job files snapshot answers k
  have hstart : (handlerState job files snapshot).toPRState.Names job.repo job.prNumber
      job.commitSha := by
    unfold handlerState
    split <;> exact ⟨rfl, rfl, rfl⟩
  exact ⟨hsame.repo ▸ hstart.repo, hsame.prNumber ▸ hstart.prNumber,
    hsame.commitSha ▸ hstart.commitSha⟩

theorem Routes.names {cfg : PipelineSettings} {job : Jobs.PRJob} {run : Routing.RouterRun}
    (h : Routes cfg job run) : run.state.Names job.repo job.prNumber job.commitSha := by
  obtain ⟨files, snapshot, answers, k, -, hstate⟩ := h
  rw [hstate]
  exact jobWalk_names cfg job files snapshot answers k

/-- With an injective digest, jobs have one key exactly when they are for one event on one
commit; decisions have one key exactly when they take one action on one commit; and two job runs
for one commit, whatever their events, are given one row exactly when they take one action. -/
theorem keys_identify_work {sha256 : String → String} (hsha : Function.Injective sha256) :
    (∀ payload payload' : Jobs.PRPayload, Separable payload → Separable payload' →
      (payload.dedupKey sha256 = payload'.dedupKey sha256 ↔
        payload.event = payload'.event ∧ payload.repo = payload'.repo ∧
          payload.prNumber = payload'.prNumber ∧ payload.commitSha = payload'.commitSha)) ∧
    (∀ (u : Unicode) (state state' : Routing.PRState) (decision decision' : Routing.RoutingDecision)
      (repo repo' commitSha commitSha' : String) (prNumber prNumber' : ℤ),
      state.Names repo prNumber commitSha → state'.Names repo' prNumber' commitSha' →
      '|' ∉ repo.toList → '|' ∉ commitSha.toList → '|' ∉ repo'.toList → '|' ∉ commitSha'.toList →
      (decision.dedupKey u state = decision'.dedupKey u state' ↔
        repo = repo' ∧ prNumber = prNumber' ∧ commitSha = commitSha' ∧
          decision.action = decision'.action)) ∧
    ∀ (cfg : PipelineSettings) (ledger : Routing.Ledger) (job job' : Jobs.PRJob)
      (s t u : Routing.State) (a b : Routing.Step) (run run' : Routing.RouterRun)
      (d d' : Routing.DecisionId) (created created' : Bool),
      SameCommit job job' → Routes cfg job run → Routes cfg job' run' →
      (Routing.reviews cfg.routing ledger).Reachable anyStep s → s.Gives a run d created →
      Routing.step cfg.routing s a = some t →
      (Routing.reviews cfg.routing ledger).Run anyStep t u → u.Gives b run' d' created' →
      (d' = d ↔ run'.decision.action = run.decision.action) ∧
        (run'.decision.action = run.decision.action → created' = false) := by
  refine ⟨fun _ _ h h' => jobKey_eq_iff hsha h h', ?_, ?_⟩
  · intro u state state' decision decision' repo repo' commitSha commitSha' prNumber prNumber' h h'
      hrepo hcommit hrepo' hcommit'
    exact Routing.dedupKey_eq_iff h h' hrepo hcommit hrepo' hcommit'
  · intro cfg ledger job job' s t u a b run run' d d' created created' hcommit hroutes hroutes' hs
      hgives hstep hlater hgives'
    have hnames := hroutes'.names
    rw [hcommit.repo, hcommit.prNumber, hcommit.commitSha] at hnames
    exact Routing.one_row_per_action hs hgives hstep hlater hgives' hroutes.names hnames

/-- SHA-256 on two texts. -/
def sampleDigest : Equiv.Perm String :=
  (Equiv.swap "check_run|acme/api|5|c0ffee"
    "c3180ea81f521e8ba97461d2cdd4d69000fb4c2ca58aef5294abd75631618978").trans
  (Equiv.swap "workflow_run|acme/api|5|c0ffee"
    "64f38ee8f523bbec40ea6043dbc60a2d628ebdde79abd68773249155d6c2df9a")

example : sampleDigest "workflow_run|acme/api|5|c0ffee" =
    "64f38ee8f523bbec40ea6043dbc60a2d628ebdde79abd68773249155d6c2df9a" := by decide

def failedPayload : Jobs.PRPayload := failedCandidate.payload "acme/api"

def failedWorkflow : Jobs.PRPayload :=
  { failedPayload with event := "workflow_run", author := "dev", installationId := none }

def workflowJob : Jobs.PRJob := failedWorkflow.newJob { sha256 := sampleDigest } 0

def fixedState (job : Jobs.PRJob) : Routing.PRState :=
  (jobWalk .small job [⟨"a.py", ""⟩] [("a.py", "")] twoAttempts 5).state.state.toPRState

def checkFixed : Routing.State :=
  (Routing.reviews PipelineSettings.small.routing .empty).after
    (Routing.routerRun 0 [.start (fixedState failedJob) true, .select]) (by decide)

def checkStored : Routing.State :=
  (Routing.step PipelineSettings.small.routing checkFixed (.router 0 .insert)).get (by decide)

def workflowFixed : Routing.State :=
  (Routing.step PipelineSettings.small.routing checkStored
    (.router 1 (.start (fixedState workflowJob) true))).get (by decide)

def checkRun : Routing.RouterRun := (checkFixed.routers 0).run.get (by decide)

def workflowRun : Routing.RouterRun := (workflowFixed.routers 1).run.get (by decide)

theorem checkRun_routes : Routes .small failedJob checkRun :=
  ⟨[⟨"a.py", ""⟩], [("a.py", "")], twoAttempts, 5, by decide, rfl⟩

theorem workflowRun_routes : Routes .small workflowJob workflowRun :=
  ⟨[⟨"a.py", ""⟩], [("a.py", "")], twoAttempts, 5, by decide, rfl⟩

theorem checkRun_given : checkFixed.Gives (.router 0 .insert) checkRun 0 true :=
  ⟨0, .insert, "acme/api|5|c0ffee|propose_fix", rfl, (Option.some_get _).symm, by decide⟩

theorem workflowRun_given : workflowFixed.Gives (.router 1 .select) workflowRun 0 false :=
  ⟨1, .select, "acme/api|5|c0ffee|propose_fix", rfl, (Option.some_get _).symm, by decide⟩

/-- Keys of two checks of one commit, and the row that they share. -/
theorem keys_identify_work_checks :
    failedPayload.dedupKey sampleDigest =
      { failedPayload with author := "dev", ciLogs := "" : Jobs.PRPayload }.dedupKey sampleDigest ∧
    failedPayload.dedupKey sampleDigest ≠ failedWorkflow.dedupKey sampleDigest ∧
    checkRun.decision.dedupKey .ascii (fixedState failedJob) =
      { checkRun.decision with risk := .str "high", body := "" : Routing.RoutingDecision }.dedupKey
        .ascii (fixedState workflowJob) ∧
    workflowRun.decision.action = checkRun.decision.action := by
  obtain ⟨hjobs, hdecisions, hruns⟩ := keys_identify_work sampleDigest.injective
  have hplain : Separable failedPayload := ⟨by decide, by decide, by decide⟩
  have hworkflow : Separable failedWorkflow := ⟨by decide, by decide, by decide⟩
  refine ⟨(hjobs _ _ hplain ⟨hplain.event, hplain.repo, hplain.commitSha⟩).mpr
    ⟨rfl, rfl, rfl, rfl⟩, fun h => absurd ((hjobs _ _ hplain hworkflow).mp h).1 (by decide), ?_, ?_⟩
  · exact (hdecisions _ _ _ _ _ _ _ _ _ _ _ (jobWalk_names _ failedJob _ _ _ _)
      (jobWalk_names _ workflowJob _ _ _ _) (by decide) (by decide) (by decide) (by decide)).mpr
      ⟨rfl, rfl, rfl, rfl⟩
  · have hs : (Routing.reviews PipelineSettings.small.routing .empty).Reachable anyStep checkFixed :=
      Reachable.after (by decide) (System.Admits.any _ _)
    have hstart : (Routing.reviews PipelineSettings.small.routing .empty).step checkStored
        (.router 1 (.start (fixedState workflowJob) true)) = some workflowFixed :=
      (Option.some_get _).symm
    exact (hruns .small .empty failedJob workflowJob checkFixed checkStored workflowFixed _ _
      checkRun workflowRun 0 0 true false ⟨rfl, rfl, rfl⟩ checkRun_routes workflowRun_routes hs
      checkRun_given (Option.some_get _).symm (Run.single trivial hstart) workflowRun_given).1.mp rfl

end AutoPR.Pipeline
