import AutoPR.Jobs.Invariant

/-! The result ledger. `job_results` is what insert-ignore makes of the results
that executions commit, in commit order, so it keeps the first one of each job;
a row turns DONE only in such a commit. -/
namespace AutoPR.Jobs
open UnitOfWork Transition

def Event.result : Event → Option JobResult
  | .completed j summary => some ⟨j, summary⟩
  | _ => none

/-- The results of the committed executions, in commit order. -/
def State.completions (s : State) : List JobResult :=
  s.events.reverse.filterMap Event.result

def State.resultsOf (s : State) (j : JobId) : List JobResult :=
  rowsOf JobResult.jobId j s.results

theorem completions_append {s t : State} {new : List Event} (h : t.events = new ++ s.events) :
    t.completions = s.completions ++ new.reverse.filterMap Event.result := by
  simp [State.completions, h]

theorem WorkerMove.result {cfg : Settings} {now : Nat} {row : Option PRJob} {pc : WorkerPc}
    {act : WorkerAct} {eff : WorkerEffect} {msg : StreamMessage} (h : WorkerMove cfg now row pc act eff)
    (hmsg : pc.message = some msg) :
    eff.events.reverse.filterMap Event.result =
      eff.record.toList.map fun summary => ⟨msg.jobId, summary⟩ := by
  cases h with
  | succeed msg' =>
    cases hmsg
    rfl
  | _ => rfl

theorem PublisherMove.result {cfg : Settings} {now : Nat} {jobs : JobTable} {nextId : JobId}
    {nextEntry : EntryId} {p : PublisherId} {pc : PublisherPc}
    {act : PublisherAct} {eff : PublisherEffect}
    (h : PublisherMove cfg now jobs nextId nextEntry p pc act eff) :
    eff.events.reverse.filterMap Event.result = [] := by
  cases h <;> rfl

theorem step_completions {cfg : Settings} {s t : State} {a : Action}
    (h : step cfg s a = some t) :
    (t.completions = s.completions ∧ t.results = s.results) ∨
    ∃ r, t.completions = s.completions ++ [r] ∧
      t.results = insertIgnore JobResult.jobId s.results r := by
  obtain hquiet | ⟨w, act, msg, eff, -, hmsg, hmove, rfl⟩ | ⟨p, act, eff, -, hmove, rfl⟩ :=
    step_cases h
  · refine .inl ⟨?_, hquiet.results⟩
    simp only [State.completions, hquiet.events]
  · have hadd := completions_append (applyWorker_events s w msg eff)
    rw [hmove.result hmsg] at hadd
    cases hrec : eff.record with
    | none =>
      refine .inl ⟨?_, by simp [State.applyWorker, hrec]⟩
      simpa [hrec] using hadd
    | some summary =>
      refine .inr ⟨⟨msg.jobId, summary⟩, ?_, by simp [State.applyWorker, hrec]⟩
      simpa [hrec] using hadd
  · refine .inl ⟨?_, rfl⟩
    rw [completions_append (applyPublisher_events s p eff), hmove.result, List.append_nil]

theorem WorkerMove.done {cfg : Settings} {now : Nat} {row : Option PRJob} {pc : WorkerPc}
    {act : WorkerAct} {eff : WorkerEffect} {job : PRJob} (h : WorkerMove cfg now row pc act eff)
    (hw : eff.write = some job) (hdone : job.status = .done) :
    (∃ old, row = some old ∧ old.status = .done) ∨ ∃ summary, eff.record = some summary := by
  obtain ⟨old, hrow, hsame | htarget⟩ := h.status hw
  · exact .inl ⟨old, hrow, hsame ▸ hdone⟩
  · rw [hdone] at htarget
    cases act with
    | succeed summary =>
      cases h with
      | succeed => exact .inr ⟨summary, rfl⟩
      | _ => cases hw
    | _ => cases htarget

theorem PublisherMove.done {cfg : Settings} {now : Nat} {jobs : JobTable} {nextId j : JobId}
    {nextEntry : EntryId} {p : PublisherId} {pc : PublisherPc}
    {act : PublisherAct} {eff : PublisherEffect} {job : PRJob}
    (h : PublisherMove cfg now jobs nextId nextEntry p pc act eff) (hw : eff.write = some (j, job))
    (hdone : job.status = .done) : ∃ old, jobs j = some old ∧ old.status = .done := by
  obtain ⟨old, hrow, hsame | htarget⟩ := h.status hw
  · exact ⟨old, hrow, hsame ▸ hdone⟩
  · rw [hdone] at htarget
    cases act <;> cases htarget

theorem step_done {cfg : Settings} {s t : State} {a : Action} (h : step cfg s a = some t)
    {j : JobId} {job : PRJob} (hjob : t.jobs j = some job) (hdone : job.status = .done) :
    (∃ row, s.jobs j = some row ∧ row.status = .done) ∨
    ∃ summary, t.completions = s.completions ++ [⟨j, summary⟩] := by
  obtain hquiet | ⟨w, act, msg, eff, -, hmsg, hmove, rfl⟩ | ⟨p, act, eff, -, hmove, rfl⟩ :=
    step_cases h
  · exact .inl ⟨job, hquiet.jobs ▸ hjob, hdone⟩
  · obtain hsame | ⟨new, rfl, hw, hnew⟩ := applyWorker_row s w msg eff j
    · exact .inl ⟨job, hsame ▸ hjob, hdone⟩
    · rw [hnew] at hjob
      cases hjob
      apply (hmove.done hw hdone).imp id
      rintro ⟨summary, hrec⟩
      refine ⟨summary, ?_⟩
      rw [completions_append (applyWorker_events s w msg eff), hmove.result hmsg, hrec]
      rfl
  · obtain hsame | ⟨payload, -, -, hnew, -⟩ | ⟨new, hw, hnew⟩ := applyPublisher_row hmove j
    · exact .inl ⟨job, hsame ▸ hjob, hdone⟩
    · rw [hnew] at hjob
      cases hjob
      cases hdone
    · rw [hnew] at hjob
      cases hjob
      exact .inl (hmove.done hw hdone)

structure Ledger (s : State) : Prop where
  results_eq : s.results = s.completions.foldl (insertIgnore JobResult.jobId) []
  done_mem : ∀ j row, s.jobs j = some row → row.status = .done →
    ∃ r ∈ s.completions, r.jobId = j

theorem Ledger.step {cfg : Settings} {s t : State} {a : Action} (h : step cfg s a = some t)
    (hs : Ledger s) : Ledger t where
  results_eq := by
    obtain ⟨hc, hr⟩ | ⟨r, hc, hr⟩ := step_completions h
    · rw [hc, hr]
      exact hs.results_eq
    · rw [hc, hr, hs.results_eq, List.foldl_append]
      rfl
  done_mem j job hjob hdone := by
    obtain ⟨row, hrow, hold⟩ | ⟨summary, hc⟩ := step_done h hjob hdone
    · have hmem := hs.done_mem j row hrow hold
      obtain ⟨hc, -⟩ | ⟨r, hc, -⟩ := step_completions h
      · exact hc ▸ hmem
      · obtain ⟨first, hfirst, hj⟩ := hmem
        exact ⟨first, hc ▸ List.mem_append_left [r] hfirst, hj⟩
    · exact ⟨⟨j, summary⟩, by simp [hc], rfl⟩

theorem Reachable.ledger {cfg : Settings} {s : State}
    (h : (pipeline cfg).Reachable anyStep s) : Ledger s :=
  Reachable.invariant (J := fun _ => True) (fun _ _ => trivial)
    ⟨rfl, fun _ _ hrow => by cases hrow⟩ (fun _ _ _ _ _ hstep hs => hs.step hstep) h

theorem Ledger.resultsOf_eq {s : State} (hs : Ledger s) (j : JobId) :
    s.resultsOf j = (rowsOf JobResult.jobId j s.completions).head?.toList := by
  rw [State.resultsOf, hs.results_eq, rowsOf_foldl_insertIgnore]

theorem Ledger.resultsOf_done {s : State} (hs : Ledger s) {j : JobId} {row : PRJob}
    (hrow : s.jobs j = some row) (hdone : row.status = .done) :
    (s.resultsOf j).length = 1 := by
  obtain ⟨r, hmem, hj⟩ := hs.done_mem j row hrow hdone
  rw [hs.resultsOf_eq]
  cases hfirst : rowsOf JobResult.jobId j s.completions with
  | nil => exact absurd hj (rowsOf_eq_nil.mp hfirst r hmem)
  | cons first rest => rfl

theorem Run.completions {cfg : Settings} {s t : State} (h : (pipeline cfg).Run anyStep s t) :
    ∃ later, t.completions = s.completions ++ later := by
  induction h with
  | refl => exact ⟨[], by simp⟩
  | tail _ hlast ih =>
    obtain ⟨later, hlater⟩ := ih
    obtain ⟨a, -, hstep⟩ := hlast
    obtain ⟨hc, -⟩ | ⟨r, hc, -⟩ := step_completions hstep
    · exact ⟨later, hc.trans hlater⟩
    · exact ⟨later ++ [r], by rw [hc, hlater, List.append_assoc]⟩

theorem Ledger.resultsOf_run {cfg : Settings} {s t : State} (hs : Ledger s) (ht : Ledger t)
    (h : (pipeline cfg).Run anyStep s t) {j : JobId} {r : JobResult} (hr : r ∈ s.resultsOf j) :
    t.resultsOf j = [r] := by
  obtain ⟨later, hlater⟩ := Run.completions h
  rw [hs.resultsOf_eq] at hr
  rw [ht.resultsOf_eq, hlater]
  cases hfirst : rowsOf JobResult.jobId j s.completions with
  | nil => simp [hfirst] at hr
  | cons first rest =>
    have hr : r = first := by simpa [hfirst] using hr
    unfold rowsOf at hfirst ⊢
    rw [List.filter_append, hfirst, hr]
    rfl

/-- At most one result a job, exactly one when it is DONE, committed by the step
that sets DONE; it is the first that an execution committed and it stays. -/
theorem result_ledger_exactly_once {cfg : Settings} {s : State}
    (h : (pipeline cfg).Reachable anyStep s) (j : JobId) :
    (s.resultsOf j).length ≤ 1 ∧
    (∀ row, s.jobs j = some row → row.status = .done → (s.resultsOf j).length = 1) ∧
    (∀ r ∈ s.resultsOf j, (s.completions.filter (·.jobId = j)).head? = some r) ∧
    (∀ a t job, step cfg s a = some t → t.jobs j = some job → job.status = .done →
      (∀ row, s.jobs j = some row → row.status ≠ .done) →
        (∃ summary, t.completions = s.completions ++ [⟨j, summary⟩]) ∧
        (t.resultsOf j).length = 1) ∧
    (∀ t, (pipeline cfg).Run anyStep s t → ∀ r ∈ s.resultsOf j, t.resultsOf j = [r]) := by
  have hs := Reachable.ledger h
  refine ⟨?_, fun row => hs.resultsOf_done, ?_, ?_, ?_⟩
  · rw [hs.resultsOf_eq]
    cases (rowsOf JobResult.jobId j s.completions).head? <;> simp
  · intro r hr
    rw [hs.resultsOf_eq, Option.mem_toList] at hr
    exact hr
  · intro a t job hstep hjob hdone hnew
    refine ⟨?_, (hs.step hstep).resultsOf_done hjob hdone⟩
    obtain ⟨row, hrow, hold⟩ | hcommit := step_done hstep hjob hdone
    · exact absurd hold (hnew row hrow)
    · exact hcommit
  · intro t hrun r hr
    exact hs.resultsOf_run (Reachable.ledger (Reachable.run h hrun)) hrun hr

/-- The lease of the first handling ends while its handler runs, so a second one
claims the job; the second commits first. -/
def overlapRun : List Action :=
  ingestRun 0 ++ .consume 0 :: workerRun 0 [.read, .stampClaim, .claim] ++
    [.tick 1001, .reclaim 1 0] ++
    workerRun 1 [.read, .stampClaim, .claim, .succeed "first", .ack] ++
    workerRun 0 [.succeed "second", .ack]

def overlapState : State := (pipeline .small).after overlapRun (by decide)

theorem result_ledger_exactly_once_overlap :
    overlapState.resultsOf 0 = [⟨0, "first"⟩] ∧ (overlapState.resultsOf 0).length ≤ 1 :=
  ⟨by decide, (result_ledger_exactly_once
    (Reachable.after (by decide) (System.Admits.any overlapRun _)) 0).1⟩

end AutoPR.Jobs
