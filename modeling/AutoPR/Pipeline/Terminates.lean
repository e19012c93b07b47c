import AutoPR.Pipeline.Steps

/-! Every run of the graph ends at the router, within a bound on its nodes, and stays on the
track that the parser of the delivery has chosen. -/
namespace AutoPR.Pipeline
open Python Workflow Webhook

inductive Track where
  | prReview
  | ciFix
deriving DecidableEq, Repr

def Track.ofCi (ci : Bool) : Track := if ci then .ciFix else .prReview

/-- The track of the parser that `parse_event` picks. -/
def parserTrack (event : String) : Track := .ofCi (event ∈ ciEvents)

def Track.parser : Track → Unicode → String → PyVal → Py (Option Candidate)
  | .prReview => parsePullRequestEvent
  | .ciFix => parseCiEvent

def workerTrack (job : Jobs.PRJob) : Track := .ofCi (isCiJob job)

def Track.entry : Track → Node
  | .prReview => .codeReviewer
  | .ciFix => .ciMonitor

def policyTrack (state : PipelineState) : Track := .ofCi state.toPRState.isCi

def Track.visits : Track → Node → Bool
  | .prReview, .codeReviewer | .prReview, .testGenerator | .prReview, .router => true
  | .ciFix, .ciMonitor | .ciFix, .fixAgent | .ciFix, .fixVerifier | .ciFix, .router => true
  | _, _ => false

theorem parseEvent_eq (u : Unicode) (event : String) (payload : PyVal) :
    parseEvent u event payload = (parserTrack event).parser u event payload := by
  unfold parseEvent parserTrack Track.ofCi
  by_cases h : event ∈ ciEvents
  · simp only [h, ↓reduceIte, decide_true]
    rfl
  · simp only [h, ↓reduceIte, decide_false, Bool.false_eq_true]
    rfl

theorem workerTrack_eq (job : Jobs.PRJob) : workerTrack job = parserTrack job.event := rfl

theorem handlerState_ci (job : Jobs.PRJob) (files : List ChangedFile) (snapshot : Snapshot) :
    isCiFailureEvent (handlerState job files snapshot) = isCiJob job := by
  unfold handlerState
  cases h : isCiJob job with
  | false => rfl
  | true =>
    have hevent : job.event ≠ "" := by
      intro hempty
      simp [isCiJob, ciJobEvents, hempty] at h
    simp [isCiFailureEvent, Tenancy.jobState, PyVal.truthy, hevent]

theorem entryRouter_eq (state : PipelineState) :
    entryRouter state = (Track.ofCi (isCiFailureEvent state)).entry := by
  unfold entryRouter Track.ofCi
  split <;> rfl

def rounds : ℕ → List Node
  | 0 => []
  | r + 1 => rounds r ++ [.fixAgent, .fixVerifier]

@[simp] theorem rounds_length (r : ℕ) : (rounds r).length = 2 * r := by
  induction r with
  | zero => rfl
  | succ r ih =>
    rw [rounds, List.length_append, ih]
    simp only [List.length_cons, List.length_nil]
    omega

theorem rounds_count (r : ℕ) :
    (rounds r).count .fixAgent = r ∧ (rounds r).count .fixVerifier = r ∧
      (rounds r).count .router = 0 := by
  induction r with
  | zero => exact ⟨rfl, rfl, rfl⟩
  | succ r ih =>
    obtain ⟨hfix, hverify, hrouter⟩ := ih
    simp only [rounds, List.count_append, hfix, hverify, hrouter]
    exact ⟨rfl, rfl, rfl⟩

theorem rounds_visits (r : ℕ) : ∀ n ∈ rounds r, Track.ciFix.visits n = true := by
  induction r with
  | zero =>
    intro n hn
    cases hn
  | succ r ih =>
    intro n hn
    rw [rounds, List.mem_append] at hn
    cases hn with
    | inl h => exact ih n h
    | inr h =>
      simp only [List.mem_cons, List.not_mem_nil, or_false] at h
      cases h with
      | inl h => rw [h]; rfl
      | inr h => rw [h]; rfl

inductive PrPlace : Stage Node → List Node → Prop
  | review : PrPlace (.due .codeReviewer) []
  | tests : PrPlace (.due .testGenerator) [.codeReviewer]
  | route : PrPlace (.due .router) [.codeReviewer, .testGenerator]
  | ended : PrPlace .ended [.codeReviewer, .testGenerator, .router]
  | raised (visited : List Node) : PrPlace .raised visited

/-- The places of a run on the CI track, by the attempts at a fix so far. -/
inductive CiPlace (maxFix attempts : ℤ) : Stage Node → List Node → Prop
  | monitor (hattempts : attempts = 0) : CiPlace maxFix attempts (.due .ciMonitor) []
  | fix (r : ℕ) (hroom : r = 0 ∨ (r : ℤ) < maxFix) (hattempts : attempts = r) :
      CiPlace maxFix attempts (.due .fixAgent) (.ciMonitor :: rounds r)
  | verify (r : ℕ) (hroom : r = 0 ∨ (r : ℤ) < maxFix) (hattempts : attempts = r + 1) :
      CiPlace maxFix attempts (.due .fixVerifier) (.ciMonitor :: (rounds r ++ [.fixAgent]))
  | route (r : ℕ) (hr : (r : ℤ) ≤ max 1 maxFix) :
      CiPlace maxFix attempts (.due .router) (.ciMonitor :: rounds r)
  | ended (r : ℕ) (hr : (r : ℤ) ≤ max 1 maxFix) :
      CiPlace maxFix attempts .ended (.ciMonitor :: (rounds r ++ [.router]))
  | raised (visited : List Node) : CiPlace maxFix attempts .raised visited

structure OnPrTrack (w : Walk Node Thread) : Prop where
  noEvidence : isCiFailureEvent w.state.state = false
  undiagnosed : w.state.state.failureType = none
  place : PrPlace w.stage w.visited

structure OnCiTrack (cfg : PipelineSettings) (w : Walk Node Thread) : Prop where
  evidence : isCiFailureEvent w.state.state = true
  place : CiPlace cfg.maxFixAttempts (w.state.state.fixAttempts.getD 0) w.stage w.visited

variable {cfg : PipelineSettings} {w : Walk Node Thread} {n : Node} {a : Answer}

theorem OnPrTrack.visit (h : OnPrTrack w) (hdue : w.stage = .due n) :
    OnPrTrack ((graph cfg).visit n w a) := by
  obtain ⟨hevidence, hundiagnosed, hplace⟩ := h
  cases hrun : (graph cfg).run n w.state a with
  | none =>
    rw [Graph.visit_of_raise hrun]
    exact ⟨hevidence, hundiagnosed, .raised _⟩
  | some after =>
    have hmove : NodeMove cfg w.state a n after := runNode_move hrun
    have hsame := hmove.sameJob.isCiFailureEvent.trans hevidence
    rw [Graph.visit_of_run hrun]
    rw [hdue] at hplace
    generalize w.visited = visited at hplace
    cases hplace with
    | review =>
      cases hmove with
      | review => exact ⟨hsame, hundiagnosed, .tests⟩
    | tests =>
      cases hmove with
      | tests => exact ⟨hsame, hundiagnosed, .route⟩
    | route =>
      cases hmove with
      | decide => exact ⟨hsame, hundiagnosed, .ended⟩

theorem OnCiTrack.visit (h : OnCiTrack cfg w) (hdue : w.stage = .due n) :
    OnCiTrack cfg ((graph cfg).visit n w a) := by
  obtain ⟨hevidence, hplace⟩ := h
  cases hrun : (graph cfg).run n w.state a with
  | none =>
    rw [Graph.visit_of_raise hrun]
    exact ⟨hevidence, .raised _⟩
  | some after =>
    have hmove : NodeMove cfg w.state a n after := runNode_move hrun
    have hsame := hmove.sameJob.isCiFailureEvent.trans hevidence
    rw [Graph.visit_of_run hrun]
    refine ⟨hsame, ?_⟩
    rw [hdue] at hplace
    generalize w.visited = visited at hplace
    cases hplace with
    | monitor hattempts =>
      cases hmove with
      | diagnose ftype diagnosis excerpt hftype =>
        dsimp only [Graph.after, graph, nextNode, afterCiMonitor, List.nil_append]
        split
        · exact .route 0 (by omega)
        · exact .fix 0 (.inl rfl) hattempts
    | fix r hroom hattempts =>
      cases hmove with
      | fix fix hfix =>
        refine .verify r hroom ?_
        simp only [Option.getD_some, hattempts]
    | verify r hroom hattempts =>
      cases hmove with
      | verify =>
        have hlist : .ciMonitor :: (rounds r ++ [.fixAgent]) ++ [.fixVerifier] =
            Node.ciMonitor :: rounds (r + 1) := by
          simp [rounds]
        have hcount : ((w.state.verify cfg.unicode a.sandbox).state.fixAttempts.getD 0) = r + 1 :=
          hattempts
        rw [hlist]
        dsimp only [Graph.after, graph, nextNode]
        cases afterFixVerifier_eq cfg (w.state.verify cfg.unicode a.sandbox).state with
        | inl hrouter =>
          rw [hrouter]
          exact .route (r + 1) (by omega)
        | inr hagain =>
          obtain ⟨hnext, hroom'⟩ := hagain
          rw [hnext]
          exact .fix (r + 1) (.inr (by omega)) (by omega)
    | route r hr =>
      cases hmove with
      | decide => exact .ended r hr

def nodeBound (cfg : PipelineSettings) : ℕ := 2 * (max 1 cfg.maxFixAttempts).toNat + 2

theorem PrPlace.room {visited : List Node} (h : PrPlace (.due n) visited) :
    visited.length ≤ 2 := by
  cases h <;> simp

theorem CiPlace.room {maxFix attempts : ℤ} {visited : List Node}
    (h : CiPlace maxFix attempts (.due n) visited) :
    visited.length ≤ 2 * (max 1 maxFix).toNat + 1 := by
  cases h with
  | monitor hattempts => simp
  | fix r hroom hattempts =>
    simp only [List.length_cons, rounds_length]
    omega
  | verify r hroom hattempts =>
    simp only [List.length_cons, List.length_append, rounds_length, List.length_nil]
    omega
  | route r hr =>
    simp only [List.length_cons, rounds_length]
    omega

/-- A run that has reached the end on a track. -/
structure Completed (cfg : PipelineSettings) (track : Track) (w : Walk Node Thread) : Prop where
  ended : w.stage = .ended
  routerOnce : w.visited.count .router = 1
  routerLast : w.visited.getLast? = some .router
  paired : w.visited.count .fixAgent = w.visited.count .fixVerifier
  bounded : (w.visited.count .fixAgent : ℤ) ≤ max 1 cfg.maxFixAttempts
  ownTrack : ∀ n ∈ w.visited, track.visits n = true
  policy : policyTrack w.state.state = track

theorem OnPrTrack.completed (h : OnPrTrack w) (hended : w.stage = .ended) :
    Completed cfg .prReview w := by
  obtain ⟨hevidence, hundiagnosed, hplace⟩ := h
  have hpolicy : policyTrack w.state.state = .prReview := by
    unfold isCiFailureEvent at hevidence
    unfold policyTrack Routing.PRState.isCi
    rw [hundiagnosed, Bool.or_assoc, hevidence]
    rfl
  rw [hended] at hplace
  generalize hvisited : w.visited = visited at hplace
  cases hplace with
  | ended =>
    have hbound : (0 : ℤ) ≤ max 1 cfg.maxFixAttempts := by omega
    constructor
    · exact hended
    · rw [hvisited]; rfl
    · rw [hvisited]; rfl
    · rw [hvisited]; rfl
    · rw [hvisited]; exact hbound
    · rw [hvisited]; decide
    · exact hpolicy

theorem OnCiTrack.completed (h : OnCiTrack cfg w) (hended : w.stage = .ended) :
    Completed cfg .ciFix w := by
  obtain ⟨hevidence, hplace⟩ := h
  have hpolicy : policyTrack w.state.state = .ciFix := by
    unfold isCiFailureEvent at hevidence
    unfold policyTrack Routing.PRState.isCi
    rw [Bool.or_assoc, hevidence, Bool.or_true]
    rfl
  rw [hended] at hplace
  generalize hvisited : w.visited = visited at hplace
  cases hplace with
  | ended r hr =>
    obtain ⟨hfix, hverify, hrouter⟩ := rounds_count r
    constructor
    · exact hended
    · rw [hvisited]
      simp [hrouter]
    · rw [hvisited, ← List.cons_append, List.getLast?_append]
      rfl
    · rw [hvisited]
      simp [hfix, hverify]
    · rw [hvisited]
      simpa [hfix] using hr
    · rw [hvisited]
      intro n hn
      simp only [List.mem_cons, List.mem_append, List.not_mem_nil, or_false] at hn
      obtain rfl | hn | rfl := hn
      · rfl
      · exact rounds_visits r n hn
      · rfl
    · exact hpolicy

section Runs

variable {job : Jobs.PRJob} (files : List ChangedFile) (snapshot : Snapshot)
  (answers : ℕ → Answer)

theorem jobWalk_onPrTrack (hjob : isCiJob job = false) (k : ℕ) :
    OnPrTrack (jobWalk cfg job files snapshot answers k) := by
  apply Graph.walk_invariant
  · have hevidence := (handlerState_ci job files snapshot).trans hjob
    refine ⟨hevidence, ?_, ?_⟩
    · simp [Graph.start, handlerState, hjob, Tenancy.jobState]
    · simp only [Graph.start, graph, entryRouter_eq, hevidence]
      exact .review
  · intro w n a h hdue
    exact h.visit hdue

theorem jobWalk_onCiTrack (hjob : isCiJob job = true) (k : ℕ) :
    OnCiTrack cfg (jobWalk cfg job files snapshot answers k) := by
  apply Graph.walk_invariant
  · have hevidence := (handlerState_ci job files snapshot).trans hjob
    refine ⟨hevidence, ?_⟩
    simp only [Graph.start, graph, entryRouter_eq, hevidence]
    apply CiPlace.monitor
    simp [handlerState, hjob]
  · intro w n a h hdue
    exact h.visit hdue

theorem jobWalk_completed (job : Jobs.PRJob)
    (hraise : ∀ k, (jobWalk cfg job files snapshot answers k).stage ≠ .raised) :
    Completed cfg (workerTrack job) (jobWalk cfg job files snapshot answers (nodeBound cfg)) := by
  unfold workerTrack Track.ofCi
  cases hjob : isCiJob job with
  | false =>
    have hon : ∀ k, OnPrTrack (jobWalk cfg job files snapshot answers k) :=
      jobWalk_onPrTrack files snapshot answers hjob
    apply (hon _).completed
    apply (Graph.walk_stops ?_).resolve_right (hraise _)
    intro k n hdue
    have hplace := (hon k).place
    unfold jobWalk at hplace
    rw [hdue] at hplace
    have hroom := hplace.room
    unfold nodeBound
    omega
  | true =>
    have hon : ∀ k, OnCiTrack cfg (jobWalk cfg job files snapshot answers k) :=
      jobWalk_onCiTrack files snapshot answers hjob
    apply (hon _).completed
    apply (Graph.walk_stops ?_).resolve_right (hraise _)
    intro k n hdue
    have hplace := (hon k).place
    unfold jobWalk at hplace
    rw [hdue] at hplace
    have hroom := hplace.room
    unfold nodeBound
    omega

end Runs

/-- The run of a job that a delivery has asked for ends at the router, and the parser, the worker,
the graph and the policy take it for the same track. -/
theorem delivery_completed (cfg : PipelineSettings) (jobs : Jobs.Settings) (u : Unicode)
    (event repo : String) (payload : PyVal) (c : Candidate) (now : ℕ) (files : List ChangedFile)
    (snapshot : Snapshot) (answers : ℕ → Answer)
    (hparse : parseEvent u event payload = .ok (some c))
    (hraise : ∀ k, (jobWalk cfg ((c.payload repo).newJob jobs now) files snapshot answers k).stage
      ≠ .raised) :
    let job := (c.payload repo).newJob jobs now
    let track := parserTrack event
    track.parser u event payload = .ok (some c) ∧ workerTrack job = track ∧
      entryRouter (handlerState job files snapshot) = track.entry ∧
      ∃ k ≤ nodeBound cfg, Completed cfg track (jobWalk cfg job files snapshot answers k) := by
  intro job track
  have hevent : job.event = event := (parseEvent_stems u event payload _ hparse c rfl).1
  have hworker : workerTrack job = track := by
    rw [workerTrack_eq, hevent]
  have hcompleted := jobWalk_completed files snapshot answers job hraise
  rw [hworker] at hcompleted
  refine ⟨?_, hworker, ?_, nodeBound cfg, le_refl _, hcompleted⟩
  · rw [← hparse]
    exact (parseEvent_eq u event payload).symm
  · rw [entryRouter_eq, handlerState_ci]
    exact congrArg Track.entry hworker

def failedCheck : PyVal := .dict [
  ("action", .str "completed"),
  ("repository", .dict [("full_name", .str "acme/api")]),
  ("installation", .dict [("id", .int 7)]),
  ("check_run", .dict [
    ("conclusion", .str "failure"),
    ("head_sha", .str "c0ffee"),
    ("pull_requests", .list [.dict [("number", .int 5)]]),
    ("output", .dict [("title", .str "ruff: 1 error")])])]

def failedCandidate : Candidate where
  repo := .str "acme/api"
  prNumber := 5
  commitSha := "c0ffee"
  author := "ci"
  event := "check_run"
  installationId := some 7
  ciLogs := "check: ?\nconclusion: failure\nruff: 1 error"

/-- Knows one text of JSON. -/
def PipelineSettings.small : PipelineSettings where
  routing := { unicode := .ascii }
  loads text :=
    if text = "lint" then
      .value (.dict [("failure_type", .str "lint"), ("diagnosis", .str "unused import")])
    else .decodeError

def finished (exitCode : ℤ) : SandboxOutcome := .finished { exitCode := some exitCode }

def twoAttempts : ℕ → Answer
  | 0 => ⟨some (.str "lint"), finished 1⟩
  | 1 => ⟨some (.str "-import os"), finished 1⟩
  | 2 => ⟨none, finished 1⟩
  | 3 => ⟨some (.str "-import sys"), finished 1⟩
  | _ => ⟨none, finished 0⟩

def failedJob : Jobs.PRJob := (failedCandidate.payload "acme/api").newJob { sha256 := id } 0

/-- Two rounds are completed. -/
theorem delivery_completed_retried :
    ∃ k ≤ 6, Completed .small .ciFix
      (jobWalk .small failedJob [⟨"a.py", ""⟩] [("a.py", "")] twoAttempts k) := by
  have h := delivery_completed .small { sha256 := id } .ascii "check_run" "acme/api" failedCheck
    failedCandidate 0 [⟨"a.py", ""⟩] [("a.py", "")] twoAttempts rfl
    (Graph.walk_of_ended (show (jobWalk .small failedJob _ _ twoAttempts 6).stage = .ended by decide))
  exact h.2.2.2

end AutoPR.Pipeline
