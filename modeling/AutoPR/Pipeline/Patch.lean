import AutoPR.Library.Strip
import AutoPR.Pipeline.Terminates

/-! The patch that a proposal shows, against the patch that the sandbox has run. The renderer
strips the patch once more, which a fenced answer does not always survive. -/
namespace AutoPR.Pipeline
open Python Workflow

def fixHead (u : Unicode) (state : Routing.PRState) (diagnosis : String) : List String := [
  "## 🤖 AutoPR proposed fix (sandbox-verified)",
  "",
  "**Failure type:** `" ++ (state.failureType.getD (.str "unknown")).toStr u ++ "`",
  "",
  "**Diagnosis:** " ++ diagnosis,
  "",
  "This patch was applied to a snapshot of the repo and the matching " ++
    "check passed inside an isolated sandbox. A maintainer must approve " ++
    "before it is applied to the real branch.",
  "",
  "```diff"]

def fixBody (u : Unicode) (state : Routing.PRState) (diagnosis patch : String) : String :=
  "\n".intercalate (fixHead u state diagnosis) ++ "\n" ++ patch ++ "\n" ++ "```"

theorem fixBody_inj {u : Unicode} {state : Routing.PRState} {diagnosis patch patch' : String}
    (h : fixBody u state diagnosis patch = fixBody u state diagnosis patch') : patch = patch' := by
  unfold fixBody at h
  rw [String.append_left_inj, String.append_left_inj, String.append_right_inj] at h
  exact h

def diagnosisText (state : Routing.PRState) : Py String :=
  ((state.failureDiagnosis.getD (.str "")).or (.str "(no diagnosis)")).strip

def patchText (state : Routing.PRState) : Py String :=
  ((state.proposedFix.getD (.str "")).or (.str "")).strip

theorem renderFixBody_eq (u : Unicode) (state : Routing.PRState) :
    Routing.renderFixBody u state = do
      let diagnosis ← diagnosisText state
      let patch ← patchText state
      return fixBody u state diagnosis patch := by
  rfl

def SamePatch (shown : String) (patch : PyVal) : Prop :=
  patch = .str shown ∨ patch = .str (shown ++ "\n")

/-- The decision shows what the last sandbox call of the run has proved by the check that belongs
to the diagnosis. -/
def ShowsVerified (u : Unicode) (files : List ChangedFile) (thread : Thread)
    (decision : Routing.RoutingDecision) : Prop :=
  ∃ v result diagnosis patch,
    thread.calls.getLast? = some v ∧ v.outcome = .finished result ∧
    result.exitCode = some 0 ∧ result.timedOut = false ∧
    verificationCommand (thread.state.failureType.getD (.str "unknown")) (files.map (·.path)) =
      some v.command ∧
    diagnosisText thread.state.toPRState = .ok diagnosis ∧
    decision.body = fixBody u thread.state.toPRState diagnosis patch ∧
    SamePatch patch v.patch

def dropNewline (cs : List Char) : List Char :=
  if cs.getLast? = some '\n' then cs.dropLast else cs

def keepsEdges (cs : List Char) : Bool :=
  !(dropNewline cs).head?.any isSpace && !(dropNewline cs).getLast?.any isSpace

/-- An answer without fence lines, or one whose text between the fence lines keeps its ends. -/
def isTidy (text : String) : Bool :=
  !isFenced (strip text) || keepsEdges (innerLines (strip text)).toList

def TidyAnswer (message : Message) : Prop :=
  ∀ text, answerText message = some text → isTidy text = true

theorem keepsEdges_iff (cs : List Char) : keepsEdges cs = true ↔ Trimmed (dropNewline cs) := by
  unfold keepsEdges
  simp only [Bool.and_eq_true, Bool.not_eq_true', Option.any_eq_false]
  constructor
  · intro h
    exact ⟨h.1, h.2⟩
  · intro h
    exact ⟨h.front, h.back⟩

theorem dropNewline_newline (cs : List Char) : dropNewline (cs ++ ['\n']) = cs := by
  unfold dropNewline
  rw [List.getLast?_concat, if_pos rfl, List.dropLast_concat]

theorem dropNewline_trimmed {cs : List Char} (h : Trimmed cs) : dropNewline cs = cs := by
  unfold dropNewline
  rw [if_neg]
  intro hlast
  have hspace := h.back '\n' hlast
  revert hspace
  decide

theorem dropNewline_cases (cs : List Char) :
    dropNewline cs = cs ∨ cs = dropNewline cs ++ ['\n'] := by
  unfold dropNewline
  split
  · rename_i hlast
    right
    exact (List.dropLast_append_getLast? '\n' hlast).symm
  · left
    rfl

theorem samePatch_iff (patch : String) :
    SamePatch (strip patch) (.str patch) ↔ keepsEdges patch.toList = true := by
  unfold SamePatch
  rw [keepsEdges_iff, PyVal.str.injEq, PyVal.str.injEq]
  have htrimmed := strip_trimmed patch
  constructor
  · intro h
    cases h with
    | inl h =>
      rw [← h] at htrimmed
      rw [dropNewline_trimmed htrimmed]
      exact htrimmed
    | inr h =>
      have hlist : patch.toList = (strip patch).toList ++ ['\n'] := by
        conv => lhs; rw [h, String.toList_append]
        rfl
      rw [hlist, dropNewline_newline]
      exact htrimmed
  · intro h
    cases dropNewline_cases patch.toList with
    | inl hkeep =>
      left
      have hstrip := @strip_of_trimmed (dropNewline patch.toList) [] h (by simp)
      rw [hkeep, List.append_nil, String.ofList_toList] at hstrip
      exact hstrip.symm
    | inr hcut =>
      right
      have hstrip := @strip_of_trimmed _ ['\n'] h (by decide)
      rw [← hcut, String.ofList_toList] at hstrip
      rw [hstrip, ← String.toList_inj, String.toList_append, String.toList_ofList]
      exact hcut

theorem samePatch_readFix {text : String} (h : readFix text ≠ "") :
    SamePatch (strip (readFix text)) (.str (readFix text)) ↔ isTidy text = true := by
  have hread : readFix text = unfence (strip text) := by
    unfold readFix at h ⊢
    dsimp only at h ⊢
    split
    · rename_i hdeclined
      rw [if_pos hdeclined] at h
      exact absurd rfl h
    · rfl
  rw [samePatch_iff, hread]
  unfold isTidy unfence
  cases isFenced (strip text) with
  | true => simp
  | false =>
    have htrimmed := strip_trimmed text
    simp only [Bool.false_eq_true, ↓reduceIte, Bool.not_false, Bool.true_or, iff_true]
    rw [keepsEdges_iff, dropNewline_trimmed htrimmed]
    exact htrimmed

variable {cfg : PipelineSettings}

theorem verifyFix_verified {u : Unicode} {sandbox : SandboxOutcome} {state : PipelineState}
    (h : (verifyFix u sandbox state).fixVerified = true) :
    (state.proposedFix.getD (.str "")).truthy = true ∧
      ∃ command result, sandbox = .finished result ∧ result.exitCode = some 0 ∧
        result.timedOut = false ∧
        verificationCommand (state.failureType.getD (.str "unknown"))
          (state.changedFiles.map (·.path)) = some command ∧
        (verifyFix u sandbox state).call = some
          ⟨state.repoSnapshot.getD [], state.proposedFix.getD (.str ""), command, sandbox⟩ := by
  unfold verifyFix at h ⊢
  dsimp only at h ⊢
  split at h
  · cases h
  · rename_i hfix
    rw [if_neg hfix]
    refine ⟨by simpa using hfix, ?_⟩
    split at h
    · cases h
    · rename_i command hcommand
      split at h
      · cases h
      · rename_i hsnapshot
        cases sandbox with
        | raised repr => cases h
        | finished result =>
          obtain ⟨hexit, htime⟩ := interpret_verified.mp h
          refine ⟨command, result, rfl, hexit, htime, hcommand, ?_⟩
          simp only [if_neg hsnapshot]

theorem verify_call {u : Unicode} {thread : Thread} {sandbox : SandboxOutcome} {v : Verification}
    (h : (verifyFix u sandbox thread.state).call = some v) :
    (thread.verify u sandbox).calls.getLast? = some v := by
  unfold Thread.verify
  dsimp only
  rw [h]
  exact List.getLast?_concat

theorem route_proposeFix {cfg : Routing.Settings} {state : Routing.PRState}
    {decision : Routing.RoutingDecision} (h : Routing.route cfg state = .ok decision)
    (haction : decision.action = .proposeFix) :
    (state.fixVerified.getD .none).truthy = true ∧ ∃ diagnosis patch,
      diagnosisText state = .ok diagnosis ∧ patchText state = .ok patch ∧
      decision.body = fixBody cfg.unicode state diagnosis patch := by
  unfold Routing.route at h
  split at h
  · unfold Routing.routeCi at h
    dsimp only at h
    split at h
    · rename_i hverified
      rw [renderFixBody_eq] at h
      obtain ⟨body, hbody, h⟩ := ok_of_bind h
      obtain ⟨diagnosis, hdiagnosis, hbody⟩ := ok_of_bind hbody
      obtain ⟨patch, hpatch, hbody⟩ := ok_of_bind hbody
      have hshown : fixBody cfg.unicode state diagnosis patch = body := Except.ok.inj hbody
      have hdecision := Except.ok.inj h
      refine ⟨hverified, diagnosis, patch, hdiagnosis, hpatch, ?_⟩
      rw [← hdecision, hshown]
    · split at h
      · cases h
        cases haction
      · obtain ⟨body, -, h⟩ := ok_of_bind h
        cases h
        cases haction
  · unfold Routing.routePr at h
    obtain ⟨body, -, h⟩ := ok_of_bind h
    cases h
    cases haction

section Runs

variable {job : Jobs.PRJob} {files : List ChangedFile} {snapshot : Snapshot}
  {answers : ℕ → Answer} {k : ℕ} {n : Node}

theorem jobWalk_sameJob (k : ℕ) :
    SameJob (handlerState job files snapshot)
      (jobWalk cfg job files snapshot answers k).state.state := by
  apply @Graph.walk_invariant _ _ _ (graph cfg) _ _
    (fun w => SameJob (handlerState job files snapshot) w.state.state)
  · exact SameJob.refl _
  · intro w n a h hdue
    cases hrun : (graph cfg).run n w.state a with
    | none =>
      rw [Graph.visit_of_raise hrun]
      exact h
    | some after =>
      rw [Graph.visit_of_run hrun]
      exact h.trans (runNode_move hrun).sameJob

theorem handlerState_files : (handlerState job files snapshot).changedFiles = files := by
  unfold handlerState
  split <;> rfl

theorem handlerState_unverified : (handlerState job files snapshot).fixVerified = none := by
  unfold handlerState
  split <;> rfl

theorem jobWalk_due_succ (h : (jobWalk cfg job files snapshot answers (k + 1)).stage = .due n) :
    ∃ m after, (jobWalk cfg job files snapshot answers k).stage = .due m ∧ Edge m n ∧
      NodeMove cfg (jobWalk cfg job files snapshot answers k).state (answers k) m after ∧
      (jobWalk cfg job files snapshot answers (k + 1)).state = after := by
  obtain ⟨m, after, hdue, hrun, hnext, hstate⟩ := Graph.walk_due_succ h
  exact ⟨m, after, hdue, nextNode_edge hnext, runNode_move hrun, hstate⟩

theorem jobWalk_due_zero (h : (jobWalk cfg job files snapshot answers 0).stage = .due n) :
    n = .codeReviewer ∨ n = .ciMonitor := by
  have hentry : entryRouter (handlerState job files snapshot) = n := by
    injection h
  unfold entryRouter at hentry
  split at hentry
  · exact .inr hentry.symm
  · exact .inl hentry.symm

theorem jobWalk_unverified (hdue : (jobWalk cfg job files snapshot answers k).stage = .due n)
    (hn : n = .codeReviewer ∨ n = .testGenerator ∨ n = .ciMonitor) :
    (jobWalk cfg job files snapshot answers k).state.state.fixVerified = none := by
  induction k generalizing n with
  | zero => exact handlerState_unverified
  | succ k ih =>
    obtain ⟨m, after, hbefore, hedge, hmove, hstate⟩ := jobWalk_due_succ hdue
    cases hedge with
    | reviewed =>
      cases hmove with
      | review =>
        rw [hstate]
        exact ih hbefore (.inl rfl)
    | tested | undiagnosed | diagnosed | fixed | settled | again => simp at hn

theorem verified_history (hdue : (jobWalk cfg job files snapshot answers k).stage = .due .router)
    (hverified : ((jobWalk cfg job files snapshot answers k).state.state.fixVerified.getD
      .none).truthy = true) :
    ∃ j fixed, k = j + 2 ∧ (jobWalk cfg job files snapshot answers j).stage = .due .fixAgent ∧
      NodeMove cfg (jobWalk cfg job files snapshot answers j).state (answers j) .fixAgent fixed ∧
      (jobWalk cfg job files snapshot answers k).state =
        fixed.verify cfg.unicode (answers (j + 1)).sandbox := by
  cases k with
  | zero =>
    cases jobWalk_due_zero hdue with
    | inl h => cases h
    | inr h => cases h
  | succ k =>
    obtain ⟨m, after, hbefore, hedge, hmove, hstate⟩ := jobWalk_due_succ hdue
    rw [hstate] at hverified ⊢
    cases hedge with
    | tested =>
      cases hmove with
      | tests =>
        have hnone := jobWalk_unverified hbefore (.inr (.inl rfl))
        simp only [hnone] at hverified
        cases hverified
    | undiagnosed =>
      cases hmove with
      | diagnose =>
        have hnone := jobWalk_unverified hbefore (.inr (.inr rfl))
        simp only [hnone] at hverified
        cases hverified
    | settled =>
      cases hmove with
      | verify =>
        cases k with
        | zero =>
          cases jobWalk_due_zero hbefore with
          | inl h => cases h
          | inr h => cases h
        | succ j =>
          obtain ⟨m', fixed, hfirst, hedge', hmove', hstate'⟩ := jobWalk_due_succ hbefore
          cases hedge' with
          | fixed =>
            refine ⟨j, fixed, rfl, hfirst, hmove', ?_⟩
            rw [hstate']

theorem proposal_call {decision : Routing.RoutingDecision}
    (hdue : (jobWalk cfg job files snapshot answers k).stage = .due .router)
    (hroute : Routing.route cfg.routing
      (jobWalk cfg job files snapshot answers k).state.state.toPRState = .ok decision)
    (haction : decision.action = .proposeFix) :
    ∃ j text v result diagnosis, k = j + 2 ∧
      (jobWalk cfg job files snapshot answers j).stage = .due .fixAgent ∧
      answerText (answers j).message = some text ∧ readFix text ≠ "" ∧
      (jobWalk cfg job files snapshot answers k).state.calls.getLast? = some v ∧
      v.patch = .str (readFix text) ∧ v.outcome = .finished result ∧
      result.exitCode = some 0 ∧ result.timedOut = false ∧
      verificationCommand ((jobWalk cfg job files snapshot answers k).state.state.failureType.getD
        (.str "unknown")) (files.map (·.path)) = some v.command ∧
      diagnosisText (jobWalk cfg job files snapshot answers k).state.state.toPRState =
        .ok diagnosis ∧
      decision.body = fixBody cfg.unicode
        (jobWalk cfg job files snapshot answers k).state.state.toPRState diagnosis
        (strip (readFix text)) := by
  have hfiles := (@jobWalk_sameJob cfg job files snapshot answers k).changedFiles
  rw [handlerState_files] at hfiles
  obtain ⟨hverified, diagnosis, patch, hdiagnosis, hpatch, hbody⟩ := route_proposeFix hroute haction
  obtain ⟨j, fixed, hk, hfix, hmove, hstate⟩ := verified_history hdue hverified
  rw [hstate] at hverified hdiagnosis hpatch hbody hfiles ⊢
  cases hmove with
  | fix fix hread =>
    have hpassed := verifyFix_verified hverified
    obtain ⟨hfilled, command, result, hsandbox, hexit, htime, hcommand, hcall⟩ := hpassed
    have hne : fix ≠ "" := by
      intro hempty
      rw [hempty] at hfilled
      cases hfilled
    obtain ⟨text, htext, hfixed⟩ := hread.resolve_left hne
    have hshown : patch = strip fix := by
      unfold patchText Thread.verify PipelineState.withVerdict at hpatch
      simp only [Option.getD_some, PyVal.or, PyVal.truthy, ne_eq, hne, not_false_eq_true,
        decide_true, ↓reduceIte] at hpatch
      exact (Except.ok.inj hpatch).symm
    rw [hfixed] at hne hshown
    have hcommand' : verificationCommand _ (files.map (·.path)) = some command :=
      hfiles ▸ hcommand
    rw [hshown] at hbody
    exact ⟨j, text, _, result, diagnosis, hk, hfix, htext, hne, verify_call hcall,
      congrArg PyVal.str hfixed, hsandbox, hexit, htime, hcommand', hdiagnosis, hbody⟩

theorem showsVerified_iff {decision : Routing.RoutingDecision}
    (hdue : (jobWalk cfg job files snapshot answers k).stage = .due .router)
    (hroute : Routing.route cfg.routing
      (jobWalk cfg job files snapshot answers k).state.state.toPRState = .ok decision)
    (haction : decision.action = .proposeFix) :
    ∃ j text, k = j + 2 ∧ (jobWalk cfg job files snapshot answers j).stage = .due .fixAgent ∧
      answerText (answers j).message = some text ∧
      (ShowsVerified cfg.unicode files (jobWalk cfg job files snapshot answers k).state decision ↔
        isTidy text = true) := by
  obtain ⟨j, text, v, result, diagnosis, hk, hfix, htext, hne, hlast, hpatch, houtcome, hexit,
    htime, hcommand, hdiagnosis, hbody⟩ := proposal_call hdue hroute haction
  refine ⟨j, text, hk, hfix, htext, ?_⟩
  rw [← samePatch_readFix hne]
  constructor
  · rintro ⟨v', result', diagnosis', patch, hlast', -, -, -, -, hdiagnosis', hbody', hsame⟩
    cases hlast.symm.trans hlast'
    cases hdiagnosis.symm.trans hdiagnosis'
    rw [hpatch, fixBody_inj (hbody'.symm.trans hbody)] at hsame
    exact hsame
  · intro hsame
    rw [← hpatch] at hsame
    exact ⟨v, result, diagnosis, _, hlast, houtcome, hexit, htime, hcommand, hdiagnosis, hbody,
      hsame⟩

end Runs

/-- The patch of a proposal is the one that was verified exactly when the last answer of the fix
agent is tidy. -/
theorem proposal_verified_iff (cfg : PipelineSettings) (job : Jobs.PRJob)
    (files : List ChangedFile) (snapshot : Snapshot) (answers : ℕ → Answer) (k : ℕ)
    (decision : Routing.RoutingDecision)
    (hdue : (jobWalk cfg job files snapshot answers k).stage = .due .router)
    (hroute : Routing.route cfg.routing
      (jobWalk cfg job files snapshot answers k).state.state.toPRState = .ok decision)
    (haction : decision.action = .proposeFix) :
    ∃ j, k = j + 2 ∧ (jobWalk cfg job files snapshot answers j).stage = .due .fixAgent ∧
      (ShowsVerified cfg.unicode files (jobWalk cfg job files snapshot answers k).state decision ↔
        TidyAnswer (answers j).message) := by
  obtain ⟨j, text, hk, hfix, htext, hiff⟩ := showsVerified_iff hdue hroute haction
  refine ⟨j, hk, hfix, hiff.trans ?_⟩
  constructor
  · intro h other hother
    cases htext.symm.trans hother
    exact h
  · intro h
    exact h text htext

/-- The second attempt is shown as it was verified. -/
theorem proposal_verified_iff_retried :
    ∃ decision j, 5 = j + 2 ∧
      (jobWalk .small failedJob [⟨"a.py", ""⟩] [("a.py", "")] twoAttempts j).stage
        = .due .fixAgent ∧
      (ShowsVerified .ascii [⟨"a.py", ""⟩]
        (jobWalk .small failedJob [⟨"a.py", ""⟩] [("a.py", "")] twoAttempts 5).state decision ↔
          TidyAnswer (twoAttempts j).message) :=
  ⟨_, proposal_verified_iff .small failedJob [⟨"a.py", ""⟩] [("a.py", "")] twoAttempts 5 _
    (by decide) rfl rfl⟩

/-- A fenced patch that ends with an empty line of context. -/
def fencedAttempt : ℕ → Answer
  | 0 => ⟨some (.str "lint"), finished 1⟩
  | 1 => ⟨some (.str
      "```diff\n--- a/a.py\n+++ b/a.py\n@@ -1,2 +1 @@\n-import os\n \n```"), finished 1⟩
  | _ => ⟨none, finished 0⟩

/-- The proposal shows the patch without its last line. -/
theorem fenced_patch_cut :
    (jobWalk .small failedJob [⟨"a.py", ""⟩] [("a.py", "import os\n\n")] fencedAttempt 3).stage =
        .due .router ∧
      ∃ decision, Routing.route PipelineSettings.small.routing
          (jobWalk .small failedJob [⟨"a.py", ""⟩] [("a.py", "import os\n\n")] fencedAttempt
            3).state.state.toPRState = .ok decision ∧
        decision.action = .proposeFix ∧
        ¬ ShowsVerified .ascii [⟨"a.py", ""⟩]
          (jobWalk .small failedJob [⟨"a.py", ""⟩] [("a.py", "import os\n\n")] fencedAttempt
            3).state decision := by
  have hdue : (jobWalk .small failedJob [⟨"a.py", ""⟩] [("a.py", "import os\n\n")] fencedAttempt
      3).stage = .due .router := by decide
  refine ⟨hdue, _, rfl, rfl, ?_⟩
  obtain ⟨j, text, hj, -, htext, hiff⟩ := showsVerified_iff hdue rfl rfl
  intro hshown
  cases hj
  cases htext
  have htidy := hiff.mp hshown
  revert htidy
  decide

end AutoPR.Pipeline
