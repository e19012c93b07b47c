import AutoPR.Jobs.Publication

/-! DONE and DEAD. The guarded updates leave a finished row alone; four commits
are not guarded and can move one. A row stays finished exactly where none of them
meets a row that another actor has finished. -/
namespace AutoPR.Jobs
open UnitOfWork Transition

/-- No unguarded commit moves a finished row: an escalation does not meet DONE, the
commit of a result does not meet DEAD, and an error branch whose copy is not QUEUED
and a put-back of a publish meet neither. -/
def finishedKept (s : State) : Action → Bool
  | .worker w act =>
      match s.workers w, act with
      | .escalating msg _, .escalate => (s.jobs msg.jobId).all (·.status ≠ .done)
      | .running msg _ _, .succeed _ => (s.jobs msg.jobId).all (·.status ≠ .dead)
      | .erring msg copy _ _, .recordError =>
          copy.status = .queued || (s.jobs msg.jobId).all (!·.status.terminal)
      | _, _ => true
  | .publisher p .unclaim =>
      match s.publishers p with
      | .unclaiming j _ _ => (s.jobs j).all (!·.status.terminal)
      | _ => true
  | _ => true

def State.subject (s : State) : Action → Option JobId
  | .worker w _ => (s.workers w).message.map (·.jobId)
  | .publisher p .unclaim =>
      match s.publishers p with
      | .unclaiming j _ _ => some j
      | _ => none
  | _ => none

section
variable {cfg : Settings} {s t : State} {a : Action}

theorem claim_terminal {row job : PRJob} {stamp : Nat} (hfin : row.status.terminal = true) :
    row.claim cfg stamp ≠ some job := by
  intro hclaim
  have hclaimable := (PRJob.claim_eq_some.mp hclaim).1
  rw [PRJob.not_claimable.mpr (.inl hfin)] at hclaimable
  cases hclaimable

theorem WorkerMove.finished {w : WorkerId} {act : WorkerAct} {msg : StreamMessage}
    {eff : WorkerEffect} {row job : PRJob} (hmsg : (s.workers w).message = some msg)
    (hmove : WorkerMove cfg s.now (s.jobs msg.jobId) (s.workers w) act eff)
    (hok : finishedKept s (.worker w act)) (hrow : s.jobs msg.jobId = some row)
    (hfin : row.status.terminal = true) (hw : eff.write = some job) :
    job.status = row.status := by
  rw [hrow] at hmove
  generalize hpc : s.workers w = pc at hmsg hmove
  cases hmove <;> simp only [reduceCtorEq, Option.some.injEq] at hw
  case escalate msg' copy old hold =>
    cases hmsg
    cases hold
    subst hw
    have hst : row.status = .dead := by
      have hne : row.status ≠ .done := by simpa [finishedKept, hpc, hrow] using hok
      cases hrs : row.status <;> simp_all [JobStatus.terminal]
    rw [PRJob.escalate_status, hst]
    exact (column_eq_or ..).elim id id
  case succeed msg' copy stamp old summary hold =>
    cases hmsg
    cases hold
    subst hw
    have hst : row.status = .done := by
      have hne : row.status ≠ .dead := by simpa [finishedKept, hpc, hrow] using hok
      cases hrs : row.status <;> simp_all [JobStatus.terminal]
    rw [PRJob.finish_status, hst]
    exact (column_eq_or ..).elim id id
  case claimWon msg' copy stamp old new hold hclaim =>
    cases hold
    exact absurd hclaim (claim_terminal hfin)
  case release msg' copy stamp exc =>
    have hst := (PRJob.release_eq_some.mp hw).1.1
    rw [hst] at hfin
    cases hfin
  case recordError msg' copy exc cause =>
    cases hmsg
    simp only [Option.map_some, Option.some.injEq] at hw
    rw [← hw, PRJob.recordError_status]
    have hqueued : copy.status = .queued := by
      simpa [finishedKept, hpc, hrow, hfin] using hok
    rw [hqueued, column_clean]

theorem PublisherMove.finished {p : PublisherId} {act : PublisherAct} {eff : PublisherEffect}
    {j : JobId} {row job : PRJob}
    (hmove : PublisherMove cfg s.now s.jobs s.nextId s.nextEntry p (s.publishers p) act eff)
    (hok : finishedKept s (.publisher p act)) (hrow : s.jobs j = some row)
    (hfin : row.status.terminal = true) (hw : eff.write = some (j, job)) :
    job.status = row.status := by
  generalize hpc : s.publishers p = pc at hmove
  cases hmove <;> simp only [reduceCtorEq, Option.some.injEq, Prod.mk.injEq] at hw
  case claimWon i caller old new hold hclaim =>
    obtain ⟨rfl, rfl⟩ := hw
    cases hold.symm.trans hrow
    rw [(PRJob.claimPublish_eq_some.mp hclaim).1] at hfin
    cases hfin
  case confirm i copy msgId caller =>
    obtain ⟨old, hold, hnew⟩ := Option.map_eq_some_iff.mp hw
    cases hnew
    cases hold.symm.trans hrow
    exact PRJob.confirm_status ..
  case unclaim i copy exc =>
    obtain ⟨old, hold, hnew⟩ := Option.map_eq_some_iff.mp hw
    cases hnew
    simp [finishedKept, hpc, hrow, hfin] at hok

theorem step_finished_of (hwf : WellFormed s) (h : step cfg s a = some t) {j : JobId} {row : PRJob}
    (hok : s.subject a = some j → finishedKept s a) (hrow : s.jobs j = some row)
    (hfin : row.status.terminal = true) : ∃ job, t.jobs j = some job ∧ job.status = row.status := by
  obtain hquiet | ⟨w, act, msg, eff, rfl, hmsg, hmove, rfl⟩ | ⟨p, act, eff, rfl, hmove, rfl⟩ :=
    step_cases h
  · exact ⟨row, hquiet.jobs ▸ hrow, rfl⟩
  · obtain hsame | ⟨job, rfl, hw, hnew⟩ := applyWorker_row s w msg eff j
    · exact ⟨row, hsame ▸ hrow, rfl⟩
    · have hkept := hok (by simp [State.subject, hmsg])
      exact ⟨job, hnew, hmove.finished hmsg hkept hrow hfin hw⟩
  · obtain hsame | ⟨payload, rfl, -⟩ | ⟨job, hw, hnew⟩ := applyPublisher_row hmove j
    · exact ⟨row, hsame ▸ hrow, rfl⟩
    · cases hwf.jobs_nextId.symm.trans hrow
    · have hkept : finishedKept s (.publisher p act) := by
        cases act with
        | unclaim =>
          cases hpc : s.publishers p with
          | unclaiming i copy exc =>
            rw [hpc] at hmove
            cases hmove
            obtain ⟨old, -, hnew⟩ := Option.map_eq_some_iff.mp hw
            cases hnew
            exact hok (by simp [State.subject, hpc])
          | _ => simp [finishedKept, hpc]
        | _ => rfl
      exact ⟨job, hnew, hmove.finished hkept hrow hfin hw⟩

theorem step_finished (hwf : WellFormed s) (hok : finishedKept s a) (h : step cfg s a = some t)
    {j : JobId} {row : PRJob} (hrow : s.jobs j = some row) (hfin : row.status.terminal = true) :
    ∃ job, t.jobs j = some job ∧ job.status = row.status :=
  step_finished_of hwf h (fun _ => hok) hrow hfin

end

/-- The copy that `process_job` read and acts on. -/
def WorkerPc.advisory : WorkerPc → Option PRJob
  | .escalating _ copy | .claiming _ copy | .stamped _ copy _ | .running _ copy _ => some copy
  | _ => none

theorem WorkerMove.advisory {cfg : Settings} {now : Nat} {row : Option PRJob} {pc : WorkerPc}
    {act : WorkerAct} {eff : WorkerEffect} {copy : PRJob} (h : WorkerMove cfg now row pc act eff)
    (hcopy : eff.pc.advisory = some copy) :
    pc.advisory = some copy ∨ copy.status.terminal = false := by
  cases h with
  | readExhausted msg job hrow ht | readLive msg job hrow ht =>
    cases hcopy
    exact .inr ht
  | stampClaim | claimWon => exact .inl hcopy
  | _ => cases hcopy

theorem Reachable.advisory_open {cfg : Settings} {ok : State → Action → Prop} {s : State}
    (h : (pipeline cfg).Reachable ok s) (w : WorkerId) (copy : PRJob)
    (hcopy : (s.workers w).advisory = some copy) : copy.status.terminal = false := by
  refine Reachable.invariant (J := fun _ => True)
    (I := fun s => ∀ w copy, (s.workers w).advisory = some copy → copy.status.terminal = false)
    (fun _ _ => trivial) (fun _ _ hnone => by cases hnone) ?_ h w copy hcopy
  intro u a v _ _ hstep hu w copy hcopy
  obtain hsame | ⟨e, entry, -, hpc⟩ | ⟨act, msg, eff, -, -, hmove, rfl⟩ := step_workers hstep w
  · exact hu w copy (hsame ▸ hcopy)
  · rw [hpc] at hcopy
    cases hcopy
  · rw [applyWorker_self] at hcopy
    exact (hmove.advisory hcopy).elim (hu w copy) id

theorem finished_moved {cfg : Settings} {s t : State} {a : Action}
    (h : (pipeline cfg).Reachable anyStep s) (hstep : step cfg s a = some t)
    (hbad : finishedKept s a = false) :
    ∃ j row job, s.jobs j = some row ∧ row.status.terminal = true ∧ t.jobs j = some job ∧
      job.status ≠ row.status := by
  cases a with
  | tick | consume | reclaim => cases hbad
  | worker w act =>
    obtain ⟨msg, eff, hmsg, hmove, rfl⟩ := step_worker hstep
    have hopen := Reachable.advisory_open h w
    generalize hpc : s.workers w = pc at hmsg hmove hopen
    cases hmove <;> simp only [finishedKept, hpc] at hbad
    case escalate msg' copy row hrow =>
      cases hmsg
      have hdone : row.status = .done := by simpa [hrow] using hbad
      have hcopy : copy.status ≠ .dead := by
        intro hdead
        simpa [hdead, JobStatus.terminal] using hopen copy rfl
      refine ⟨msg.jobId, row, row.escalate s.now copy, hrow, by rw [hdone]; rfl, by simp, ?_⟩
      rw [PRJob.escalate_status, column_dirty (Ne.symm hcopy), hdone]
      simp
    case succeed msg' copy stamp row summary hrow =>
      cases hmsg
      have hdead : row.status = .dead := by simpa [hrow] using hbad
      have hcopy : copy.status ≠ .done := by
        intro hdone
        simpa [hdone, JobStatus.terminal] using hopen copy rfl
      refine ⟨msg.jobId, row, row.finish s.now copy, hrow, by rw [hdead]; rfl, by simp, ?_⟩
      rw [PRJob.finish_status, column_dirty (Ne.symm hcopy), hdead]
      simp
    case recordError msg' copy exc cause =>
      cases hmsg
      rw [Bool.or_eq_false_iff, decide_eq_false_iff_not, Option.all_eq_false] at hbad
      obtain ⟨hcopy, row, hrow, hfin⟩ := hbad
      have hfin : row.status.terminal = true := by simpa using hfin
      refine ⟨msg.jobId, row, row.recordError s.now copy exc, hrow, hfin, by simp [hrow], ?_⟩
      rw [PRJob.recordError_status, column_dirty (Ne.symm hcopy)]
      intro hst
      rw [← hst] at hfin
      cases hfin
    case escalateMissing msg' copy hrow =>
      cases hmsg
      simp [hrow] at hbad
    case succeedMissing msg' copy stamp summary hrow =>
      cases hmsg
      simp [hrow] at hbad
    case dbError msg' exc hblocked => cases hblocked <;> cases hbad
    case crash msg' hm => cases pc <;> cases hbad
    all_goals cases hbad
  | publisher p act =>
    obtain ⟨eff, hmove, rfl⟩ := step_publisher hstep
    generalize hpc : s.publishers p = pc at hmove
    cases hmove <;> simp only [finishedKept, hpc, reduceCtorEq] at hbad
    case unclaim j copy exc =>
      obtain ⟨row, hrow, hfin⟩ := (Option.all_eq_false _ _).mp hbad
      have hfin : row.status.terminal = true := by simpa using hfin
      obtain ⟨x, -, hx⟩ := Reachable.tracks h j
      refine ⟨j, row, row.unclaim s.now copy exc, hrow, hfin, ?_, ?_⟩
      · simp [State.applyPublisher, hrow]
      · rw [hx.unclaim hpc]
        intro hst
        rw [← hst] at hfin
        cases hfin

/-- A finished row keeps its status through every later step. -/
theorem finished_absorbing {cfg : Settings} {s t : State}
    (h : (pipeline cfg).Reachable (fun s a => finishedKept s a) s)
    (hrun : (pipeline cfg).Run (fun s a => finishedKept s a) s t) {j : JobId} {row : PRJob}
    (hrow : s.jobs j = some row) (hfin : row.status.terminal = true) :
    ∃ job, t.jobs j = some job ∧ job.status = row.status := by
  refine Run.invariant (I := fun u => ∃ job, u.jobs j = some job ∧ job.status = row.status)
    (fun u hu => Reachable.wellFormed (Reachable.run h hu)) ?_ hrun ⟨row, hrow, rfl⟩
  rintro u a v hwf hok hstep ⟨old, hold, hst⟩
  obtain ⟨job, hjob, heq⟩ := step_finished hwf hok hstep hold (hst ▸ hfin)
  exact ⟨job, hjob, heq.trans hst⟩

def completeRun : List Action :=
  ingestRun 0 ++ .consume 0 :: workerRun 0 [.read, .stampClaim, .claim, .succeed "ok"]

def completeState : State := (pipeline .small).after completeRun (by decide)

theorem finished_absorbing_acked :
    ∃ job, ((pipeline .small).after (completeRun ++ workerRun 0 [.ack]) (by decide)).jobs 0 =
      some job ∧ job.status = ((completeState.jobs 0).get (by decide)).status :=
  finished_absorbing (s := completeState) (Reachable.after (by decide) (by decide))
    (Run.after (by decide) (by decide) (by decide)) (Option.some_get _).symm (by decide)

def requeueRun : List Action :=
  workerRun 0 [.ackRaise true "ConnectionError", .reload, .recordError]

/-- The result is committed, then `queue.ack` raises and the error branch reloads
the DONE row and writes QUEUED over it. -/
theorem finished_requeued :
    ∃ s t, (pipeline .small).Reachable anyStep s ∧ (pipeline .small).Run anyStep s t ∧
      (s.jobs 0).map (·.status) = some .done ∧ (t.jobs 0).map (·.status) = some .queued := by
  refine ⟨completeState, (pipeline .small).after (completeRun ++ requeueRun) (by decide),
    Reachable.after (by decide) (System.Admits.any _ _),
    Run.after (by decide) (by decide) (System.Admits.any _ _),
    ?_, ?_⟩ <;> decide

end AutoPR.Jobs
